import LiveQuery.FileTree
import LiveQuery.Settings.Basic

/-!
# A settings file to start from

The file names every setting with its default, and `FileTree.initSettings` writes it where there is
nothing yet, or where the user insists.
-/

namespace LiveQuery

namespace Settings

/-- The lines of the file. -/
def templateLines : List String :=
  [ "# Orion query client configuration",
    "#",
    "# Every value here is optional; the defaults are shown. Environment",
    "# variables (ORION_API_URL, ORION_API_TIMEOUT, ORION_POLL_INTERVAL_MS,",
    "# ORION_LOG_LEVEL, ORION_LOG_FORMAT) override the file, and CLI flags",
    "# override both.",
    "",
    "[api]",
    "base_url = \"http://localhost:4200/api\"",
    "# Per-request timeout in seconds. Leave unset to wait indefinitely.",
    "# timeout_seconds = 30",
    "",
    "[polling]",
    "# Interval used by `orion watch` when --interval-ms is not given.",
    "# Must be 0 (fetch once) or at least 1000.",
    "default_interval_ms = 5000",
    "# Pause polling on SIGUSR1 and resume on SIGUSR2 (unix only).",
    "pause_when_hidden = true",
    "",
    "[logging]",
    "level = \"warn\"",
    "format = \"pretty\"",
    "",
    "# [logging.component_levels]",
    "# query = \"debug\"",
    "# client = \"debug\""]

/-- The text of the file. -/
def template : String := String.join (templateLines.map (· ++ "\n"))

end Settings

/-- Why the file is not written. -/
inductive InitError where
  | exists_ (path : String)
  | file (e : FileError)
  deriving DecidableEq, Repr

/-- The words for an error. -/
def InitError.message : InitError → String
  | exists_ path => s!"File already exists: {path}. Use --force to overwrite."
  | file e => e.message

/-- What is said once the file has been written. -/
def createdMessage (path : Bytes) : String := s!"✓ Configuration file created: {path.toStringLossy}"

/-- The tree after the file has been written at a path, where nothing may stand unless forced. -/
def FileTree.initSettings (tree : FileTree) (path : Bytes) (force : Bool) :
    Except InitError FileTree :=
  if tree.exists_ path && !force then .error (.exists_ path.toStringLossy)
  else
    match tree.write? path (Bytes.ofString Settings.template) with
    | .ok tree => .ok tree
    | .error e => .error (.file e)

end LiveQuery
