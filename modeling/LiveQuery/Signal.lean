/-!
# Signals
-/

namespace LiveQuery

/-- A signal that a program receives from outside. -/
inductive Signal where
  /-- It is to end. -/
  | interrupt
  /-- The first of the two that a program may use as it likes. -/
  | user1
  /-- The second one. -/
  | user2
  deriving DecidableEq, Repr

end LiveQuery
