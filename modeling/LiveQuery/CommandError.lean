import LiveQuery.Logger
import LiveQuery.Registry.Basic
import LiveQuery.Settings.Template

/-!
# Why a command fails
-/

namespace LiveQuery

/-- Why a command fails. -/
inductive CommandError where
  | settings (e : SettingsError)
  | logger (e : LoggerError)
  | filter (e : Json.Error)
  | creation (e : CreationError)
  | registry (e : RegistryError)
  | fetch (e : FetchError)
  /-- The fetch settled, and there is neither a response nor an error. -/
  | noResponse
  | init (e : InitError)
  /-- What is to be printed cannot be printed. -/
  | output (why : String)
  deriving Repr

/-- The words for an error. -/
def CommandError.message : CommandError → String
  | settings e => e.message
  | logger e => e.message
  | filter e => e.message
  | creation e => e.message
  | registry e => e.message
  | fetch e => e.message
  | noResponse => "query settled without a response"
  | init e => e.message
  | output why => why

end LiveQuery
