import LiveQuery.Binary64.Shortest

/-!
# JSON values

A value of a JSON text. Integers that fit 64 bits, signed or unsigned, stay integers; every other
number is a binary one. The members of an object are kept sorted by key, one per key, so that equal
objects are equal values: `Json.insert` is the only way the library adds a member.
-/

namespace LiveQuery

/-- A number of a JSON text. -/
inductive Number where
  | int (value : Int)
  | real (value : Binary64)
  deriving DecidableEq, Repr

namespace Number

/-- The least integer that a number keeps as an integer. -/
def least : Int := -0x8000000000000000

/-- The largest integer that a number keeps as an integer. -/
def largest : Int := 0xFFFFFFFFFFFFFFFF

/-- The text of a number. -/
def text : Number → String
  | int n => toString n
  | real x => x.text

end Number

/-- A JSON value. -/
inductive Json where
  | null
  | bool (value : Bool)
  | number (value : Number)
  | string (value : String)
  | array (items : List Json)
  | object (members : List (String × Json))

namespace Json

/-- A list of members, sorted by key. -/
abbrev Members := List (String × Json)

/-- The members with `value` at `key`, in place of what stood there before. -/
def insert (key : String) (value : Json) : Members → Members
  | [] => [(key, value)]
  | (k, v) :: rest =>
    if key < k then (key, value) :: (k, v) :: rest
    else if k = key then (key, value) :: rest
    else (k, v) :: insert key value rest

/-- The value at a key. -/
def find? (key : String) : Members → Option Json
  | [] => none
  | (k, v) :: rest => if k = key then some v else find? key rest

/-- The object that a list of members spells; of two with one key the later one counts. -/
def ofMembers (members : List (String × Json)) : Members :=
  members.foldl (fun acc m => insert m.1 m.2 acc) []

/-- The object that a list of members spells, as a value. -/
def obj (members : List (String × Json)) : Json := object (ofMembers members)

/-- An integer as a value. -/
def int (n : Int) : Json := number (.int n)

/-- A natural number as a value. -/
def nat (n : Nat) : Json := number (.int n)

/-- A value, or null where there is none. -/
def orNull (f : α → Json) : Option α → Json
  | none => null
  | some a => f a

end Json
end LiveQuery
