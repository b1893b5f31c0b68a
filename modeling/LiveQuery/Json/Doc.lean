import LiveQuery.Json.Error

/-!
# What a JSON text shows, in the order in which it shows it

A reader stops at the first thing it cannot use, and that may be a value of the wrong kind long
before the text breaks off. So the text is first laid out as a `Json.Doc`: the values with their
places, down to the point where the text can be read no further. A decoder then walks the layout
from the left and reports what it meets first, be it a wrong value or the break.

Some faults matter only to a reader that wants the value: a number too large, half a surrogate
pair, too many levels. Such a value is laid out whole, with its fault inside.
-/

namespace LiveQuery.Json

/-- Why the items of an array or the members of an object stop before the closing bracket. -/
inductive Break where
  /-- Something else than a comma follows an item. -/
  | noComma
  /-- The bracket follows a comma. -/
  | trailingComma
  /-- The text ends where a comma or the bracket should stand. -/
  | ended
  /-- The text ends behind a comma. -/
  | endedAfterComma
  deriving DecidableEq, Repr

namespace Break

/-- The fault for a reader that wants the next item. -/
def listFault : Break → Fault
  | noComma => .expectedListEnd
  | trailingComma => .trailingComma
  | ended => .eofList
  | endedAfterComma => .eofValue

/-- The fault for a reader that has all it wants and looks for the closing bracket. -/
def closeFault : Break → Fault
  | noComma => .trailingCharacters
  | trailingComma => .trailingComma
  | ended => .eofList
  | endedAfterComma => .trailingCharacters

/-- The fault for a reader that only passes over the items. -/
def skippedListFault : Break → Fault
  | noComma => .expectedListEnd
  | trailingComma => .expectedValue
  | ended => .eofList
  | endedAfterComma => .eofValue

/-- The fault for a reader that wants the next member. -/
def objectFault : Break → Fault
  | noComma => .expectedObjectEnd
  | trailingComma => .trailingComma
  | ended => .eofObject
  | endedAfterComma => .eofValue

/-- The fault for a reader that only passes over the members. -/
def skippedObjectFault : Break → Fault
  | noComma => .expectedObjectEnd
  | trailingComma => .keyNotString
  | ended => .eofObject
  | endedAfterComma => .eofObject

end Break

/-- How a list of items or members ends. -/
inductive Stop where
  /-- At its bracket. -/
  | closed (after : Position)
  /-- Without one. -/
  | cut (why : Break) (position : Position)
  /-- At something that is no key; `there` is what a reader would find that wants any value. -/
  | noKey (position : Position) (there : Except Error (Found × Position))
  /-- At a key that breaks off. -/
  | badKey (error skipped : Error)
  /-- Inside its last item, where the text breaks off. -/
  | inside

/-- The key of a member and the places around it: behind the key; behind the blanks that follow it,
and behind a closing bracket if one follows those; and behind the member and its blanks. -/
structure Key where
  name : Except Error String
  after : Position
  settled : Position
  done : Position

/-- A value as a text shows it. -/
inductive Doc where
  /-- There is no value here. -/
  | fault (error : Error)
  /-- A word, number or (`quoted`) string begins here and breaks off; `skipped` is the error for a
  reader that only passes over it. -/
  | broken (start : Position) (quoted : Bool) (error skipped : Error)
  | null (start after : Position)
  | bool (value : Bool) (start after : Position)
  | number (value : Except Error Number) (start after : Position)
  | string (value : Except Error String) (start after : Position)
  /-- An item comes with the place where it is looked at. -/
  | array (start : Position) (items : List (Position × Doc)) (stop : Stop)
  | object (start : Position) (members : List (Key × Doc)) (stop : Stop)

/-- What stands here, and where a reader is that has looked at it: behind a word, number or string,
before a bracket. -/
def Doc.found : Doc → Except Error (Found × Position)
  | fault e => .error e
  | broken _ _ e _ => .error e
  | null _ after => .ok (.null, after)
  | bool b _ after => .ok (.bool b, after)
  | number n _ after => return (.number (← n), after)
  | string s _ after => return (.string (← s), after)
  | array start _ _ => .ok (.sequence, start)
  | object start _ _ => .ok (.map, start)

end LiveQuery.Json
