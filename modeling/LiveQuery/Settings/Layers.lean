import LiveQuery.Arguments.Basic
import LiveQuery.FileTree
import LiveQuery.Settings.Basic

/-!
# Settings from all sides

What is not said by default is said by a file, what the file says by the environment, and what the
environment says by the command line: the last word counts, value by value. A variable whose value
cannot be read is passed over. Only the result is checked.
-/

namespace LiveQuery.Settings

/-- What is said of a document that is no text. -/
def notText : String := "stream did not contain valid UTF-8"

/-- The settings of a file. -/
def loadFile (tree : FileTree) (path : Bytes) : Except SettingsError Settings :=
  if !tree.exists_ path then .error (.notFound path.toStringLossy)
  else
    match tree.read? path with
    | .error e => .error (.unreadable e.message)
    | .ok content =>
      match content.toString? with
      | none => .error (.unreadable notText)
      | some document => parse document

/-- The settings of a file if one is named, else the default ones. -/
def load (tree : FileTree) (path : Option Bytes) : Except SettingsError Settings :=
  match path with
  | none => .ok default
  | some path => loadFile tree path

/-- What a variable says, if it can be read. -/
def variableOf (env : Environment) (name : String) (read : String → Option α) : Option α :=
  (env.text? name).bind read

/-- The settings with what the environment says. -/
def withEnvironment (env : Environment) (s : Settings) : Settings where
  api :=
    { baseUrl := (variableOf env "ORION_API_URL" some).getD s.api.baseUrl
      timeoutSeconds :=
        variableOf env "ORION_API_TIMEOUT" (fun t => (Text.readU64 t).toOption)
          <|> s.api.timeoutSeconds }
  polling :=
    { s.polling with
      defaultIntervalMs :=
        (variableOf env "ORION_POLL_INTERVAL_MS" fun t => (Text.readU64 t).toOption).getD
          s.polling.defaultIntervalMs }
  logging :=
    { s.logging with
      level := (variableOf env "ORION_LOG_LEVEL" some).getD s.logging.level
      format := (variableOf env "ORION_LOG_FORMAT" LogFormat.ofText?).getD s.logging.format }

/-- The settings with what the command line says. -/
def withConnection (c : Connection) (s : Settings) : Settings where
  api := { s.api with baseUrl := c.apiUrl.getD s.api.baseUrl }
  polling := s.polling
  logging := { s.logging with level := c.logLevel.getD s.logging.level }

/-- The settings that a command runs with: of the file if there is one, with what the environment
and the command line say. -/
def ofConnection (tree : FileTree) (env : Environment) (c : Connection) :
    Except SettingsError Settings := do
  let base ← if tree.exists_ c.config then loadFile tree c.config else .ok default
  let merged := (base.withEnvironment env).withConnection c
  merged.validate
  return merged

end LiveQuery.Settings
