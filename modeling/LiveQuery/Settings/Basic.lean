import LiveQuery.Query.Options
import LiveQuery.Settings.Logging
import LiveQuery.Toml.Decode
import LiveQuery.Toml.Printer

/-!
# Settings

Where the API is, how queries poll and what is logged. Settings are read from a TOML document, in
which everything may be missing, and written as one that reads back the same.
-/

namespace LiveQuery

/-- Where the API is. -/
structure ApiSettings where
  baseUrl : String
  /-- After how many seconds a request is given up; never, if there is none. -/
  timeoutSeconds : Option Nat
  deriving DecidableEq

/-- How queries poll. -/
structure PollingSettings where
  defaultIntervalMs : Nat
  /-- Whether polling pauses while the program is not in the foreground. -/
  pauseWhenHidden : Bool
  deriving DecidableEq

/-- What is logged. -/
structure LogSettings where
  level : String
  format : LogFormat
  components : Option ComponentLevels
  deriving DecidableEq

/-- All settings. -/
structure Settings where
  api : ApiSettings
  polling : PollingSettings
  logging : LogSettings
  deriving DecidableEq

/-- Why settings cannot be had. -/
inductive SettingsError where
  /-- The file cannot be read. -/
  | unreadable (why : String)
  | notFound (path : String)
  /-- The document does not hold settings; it is kept to show the place. -/
  | invalid (document : String) (e : Toml.Error)
  /-- A number is too large for a document. -/
  | tooLarge
  /-- A value is not allowed. -/
  | refused (field why : String)
  deriving DecidableEq, Repr

/-- The words for an error. -/
def SettingsError.message : SettingsError → String
  | unreadable why => s!"Failed to read config: {why}"
  | notFound path => s!"Config file not found: {path}"
  | invalid document e => s!"Failed to parse config: {e.message document}"
  | tooLarge => "Failed to render config as TOML: out-of-range value for u64 type"
  | refused field why => s!"Invalid value for '{field}': {why}"

namespace Settings

/-- The settings where nothing is said. -/
def default : Settings :=
  ⟨⟨"http://localhost:4200/api", none⟩, ⟨5000, true⟩, ⟨"warn", .pretty, none⟩⟩

/-- The directives for the logger. -/
def directives (s : Settings) : String :=
  ComponentLevels.directives s.logging.level s.logging.components

/-- Whether two settings say the same; the order of components does not matter. -/
def same (a b : Settings) : Bool :=
  a.api = b.api && a.polling = b.polling && a.logging.level = b.logging.level
    && a.logging.format = b.logging.format
    && match a.logging.components, b.logging.components with
      | none, none => true
      | some c, some d => c.same d
      | _, _ => false

/-! ## Checking -/

/-- Whether a character is white space. -/
def isSpace (c : Char) : Bool :=
  let n := c.toNat
  (0x9 ≤ n && n ≤ 0xD) || n = 0x20 || n = 0x85 || n = 0xA0 || n = 0x1680
    || (0x2000 ≤ n && n ≤ 0x200A) || n = 0x2028 || n = 0x2029 || n = 0x202F || n = 0x205F
    || n = 0x3000

/-- A text without the white space around it. -/
def trimmed (s : String) : List Char :=
  ((s.toList.dropWhile isSpace).reverse.dropWhile isSpace).reverse

/-- Whether a URL names a scheme that the client speaks. -/
def hasScheme (url : List Char) : Bool :=
  "http://".toList.isPrefixOf url || "https://".toList.isPrefixOf url

/-- Refuses settings that cannot be used; the first value that is not allowed is the error. -/
def validate (s : Settings) : Except SettingsError Unit :=
  let url := trimmed s.api.baseUrl
  if url.isEmpty then .error (.refused "api.base_url" "URL cannot be empty")
  else if !hasScheme url then
    .error (.refused "api.base_url" "URL must start with http:// or https://")
  else if s.api.timeoutSeconds = some 0 then
    .error (.refused "api.timeout_seconds" "timeout must be non-zero (omit it to disable)")
  else
    match (QueryOptions.mk s.polling.defaultIntervalMs).validate with
    | .error e => .error (.refused "polling.default_interval_ms" e.message)
    | .ok () => .ok ()

/-! ## Reading -/

/-- Where the API is, from a document. -/
def readApi : Toml.Span → Toml.Node → Except Toml.Error ApiSettings :=
  Toml.Node.record "ApiConfig"
    [("base_url", fun near v s => return { s with baseUrl := ← v.string near }),
      ("timeout_seconds", fun near v s =>
        return { s with timeoutSeconds := some (← v.natural near) })]
    default.api

/-- How queries poll, from a document. -/
def readPolling : Toml.Span → Toml.Node → Except Toml.Error PollingSettings :=
  Toml.Node.record "PollingConfig"
    [("default_interval_ms",
        fun near v s => return { s with defaultIntervalMs := ← v.natural near }),
      ("pause_when_hidden", fun near v s => return { s with pauseWhenHidden := ← v.boolean near })]
    default.polling

/-- What is logged, from a document. -/
def readLogging : Toml.Span → Toml.Node → Except Toml.Error LogSettings :=
  Toml.Node.record "LoggingConfig"
    [("level", fun near v s => return { s with level := ← v.string near }),
      ("format", fun near v s => return { s with format := ← v.variant LogFormat.variants near }),
      ("component_levels",
        fun near v s => return { s with components := some (.ofList (← v.strings near)) })]
    default.logging

/-- All settings, from a document. -/
def read : Toml.Span → Toml.Node → Except Toml.Error Settings :=
  Toml.Node.record "OrionConfig"
    [("api", fun near v s => return { s with api := ← readApi near v }),
      ("polling", fun near v s => return { s with polling := ← readPolling near v }),
      ("logging", fun near v s => return { s with logging := ← readLogging near v })]
    default

/-- The settings that a document holds. -/
def parse (document : String) : Except SettingsError Settings :=
  match Toml.decode read document with
  | .ok s => .ok s
  | .error e => .error (.invalid document e)

/-! ## Writing -/

/-- The largest number that a document can hold. -/
def largest : Nat := 0x7FFFFFFFFFFFFFFF

/-- A line of a document. -/
def assignment (key value : String) : String := s!"{key} = {value}\n"

/-- The section about single components. -/
def componentSection (c : ComponentLevels) : String :=
  "[logging.component_levels]\n"
    ++ String.join (c.levels.map fun l => assignment (Toml.writeKey l.1) (Toml.writeValue l.2))

/-- The sections of the settings. -/
def sections (s : Settings) : List String :=
  ["[api]\n" ++ assignment "base_url" (Toml.writeValue s.api.baseUrl)
      ++ ((s.api.timeoutSeconds.map fun n => assignment "timeout_seconds" (toString n)).getD ""),
    "[polling]\n" ++ assignment "default_interval_ms" (toString s.polling.defaultIntervalMs)
      ++ assignment "pause_when_hidden" (Text.truth s.polling.pauseWhenHidden),
    "[logging]\n" ++ assignment "level" (Toml.writeValue s.logging.level)
      ++ assignment "format" (Toml.writeValue s.logging.format.text)]
    ++ (s.logging.components.map componentSection).toList

/-- The settings as a document, if every number fits. -/
def toToml (s : Settings) : Except SettingsError String :=
  if s.api.timeoutSeconds.all (· ≤ largest) ∧ s.polling.defaultIntervalMs ≤ largest then
    .ok ("\n".intercalate s.sections)
  else .error .tooLarge

/-- Whether the settings, written and read again, say the same. -/
def rereads (s : Settings) : Bool :=
  match s.toToml with
  | .error _ => false
  | .ok document =>
    match parse document with
    | .ok t => t.same s
    | .error _ => false

end Settings
end LiveQuery
