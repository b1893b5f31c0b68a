/-!
# The logger of a process

A process has one logger at most, and it is installed once.
-/

namespace LiveQuery

/-- Why a logger cannot be installed. -/
inductive LoggerError where
  | alreadyInstalled
  deriving DecidableEq, Repr

/-- The words for an error. -/
def LoggerError.message : LoggerError → String
  | alreadyInstalled => "a global default trace dispatcher has already been set"

/-- Installs the logger of a process that may have one already. -/
def installLogger (installed : Bool) : Except LoggerError Unit :=
  if installed then .error .alreadyInstalled else .ok ()

end LiveQuery
