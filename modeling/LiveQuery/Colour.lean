import LiveQuery.Environment

/-!
# Coloured words

Words that a terminal shows in a colour. Whether there are colours is the caller's choice, and
`Colour.wanted` says what the environment would choose.
-/

namespace LiveQuery

/-- The colours in use. -/
inductive Colour where
  | red
  | green
  | yellow
  | cyan
  deriving DecidableEq, Repr

namespace Colour

/-- The number of a colour in an escape sequence. -/
def code : Colour → Nat
  | red => 31
  | green => 32
  | yellow => 33
  | cyan => 36

/-- A word in a colour, if there are colours. -/
def paint (coloured : Bool) (c : Colour) (word : String) : String :=
  if coloured then s!"\x1b[{c.code}m{word}\x1b[0m" else word

/-- Whether a variable is set to anything but zero; nothing is said by one that is not set. -/
def switch? (env : Environment) (name : String) : Option Bool := (env.text? name).map (· ≠ "0")

/-- Whether words are to be coloured: where the environment insists on it; else not where it
objects; else on a terminal, unless it is switched off. -/
def wanted (env : Environment) (terminal : Bool) : Bool :=
  if switch? env "CLICOLOR_FORCE" = some true then true
  else if (switch? env "NO_COLOR").isSome then false
  else terminal && (switch? env "CLICOLOR").getD true

end Colour
end LiveQuery
