import LiveQuery.Proofs.Toml.Record
import LiveQuery.Settings.Layers

/-!
# Who has the last word on a setting

A file, the environment and the command line each say something about some values (`Words`). The
settings of a command are put together value by value: the command line goes first, then the
environment, then the file, and where nobody says anything the value is the one by default
(`ofConnection_eq_merged`). A file that is there and cannot be used is an error whatever the others say;
only what comes out in the end is checked.
-/

namespace LiveQuery.Settings

open Toml (Node Entries)

/-- What one side says: each value, or nothing about it. -/
structure Words where
  baseUrl : Option String
  timeoutSeconds : Option Nat
  defaultIntervalMs : Option Nat
  pauseWhenHidden : Option Bool
  level : Option String
  format : Option LogFormat
  components : Option ComponentLevels

namespace Words

/-- Nothing is said. -/
def nothing : Words := ⟨none, none, none, none, none, none, none⟩

/-- What one side says, and where it says nothing, what another one does. -/
def orElse (first second : Words) : Words where
  baseUrl := first.baseUrl.or second.baseUrl
  timeoutSeconds := first.timeoutSeconds.or second.timeoutSeconds
  defaultIntervalMs := first.defaultIntervalMs.or second.defaultIntervalMs
  pauseWhenHidden := first.pauseWhenHidden.or second.pauseWhenHidden
  level := first.level.or second.level
  format := first.format.or second.format
  components := first.components.or second.components

/-- The settings where nothing else is said. -/
def settings (w : Words) : Settings where
  api := ⟨w.baseUrl.getD default.api.baseUrl, w.timeoutSeconds.or default.api.timeoutSeconds⟩
  polling :=
    ⟨w.defaultIntervalMs.getD default.polling.defaultIntervalMs,
      w.pauseWhenHidden.getD default.polling.pauseWhenHidden⟩
  logging :=
    ⟨w.level.getD default.logging.level, w.format.getD default.logging.format,
      w.components.or default.logging.components⟩

/-! ## What each side says -/

/-- The names of the groups of settings, in the order in which an array would give them. -/
def groupNames : List String := ["api", "polling", "logging"]

/-- The names of the values in a group. -/
def valueNames : String → List String
  | "api" => ["base_url", "timeout_seconds"]
  | "polling" => ["default_interval_ms", "pause_when_hidden"]
  | "logging" => ["level", "format", "component_levels"]
  | _ => []

/-- What a document has for a value of a group. -/
def valueIn (root : Node) (group name : String) : Option Node :=
  (root.part? groupNames group).bind (Node.part? (valueNames group) name)

/-- What a document says. -/
def ofNode (root : Node) : Words where
  baseUrl := (valueIn root "api" "base_url").bind (Node.taken? Node.string)
  timeoutSeconds := (valueIn root "api" "timeout_seconds").bind (Node.taken? Node.natural)
  defaultIntervalMs :=
    (valueIn root "polling" "default_interval_ms").bind (Node.taken? Node.natural)
  pauseWhenHidden := (valueIn root "polling" "pause_when_hidden").bind (Node.taken? Node.boolean)
  level := (valueIn root "logging" "level").bind (Node.taken? Node.string)
  format :=
    (valueIn root "logging" "format").bind (Node.taken? (Node.variant LogFormat.variants))
  components :=
    (valueIn root "logging" "component_levels").bind fun v => (v.taken? Node.strings).map .ofList

/-- What the text of a document says. -/
def ofDocument (document : String) : Words :=
  match Toml.readDocument document.toList with
  | .ok entries => ofNode (.table .header entries none)
  | .error _ => nothing

/-- What the file at a path says: nothing if there is none; an error if it cannot be read, if it is
no text, or if it does not hold settings. -/
def ofFile (tree : FileTree) (path : Bytes) : Except SettingsError Words :=
  if tree.exists_ path then
    match tree.read? path with
    | .error e => .error (.unreadable e.message)
    | .ok content =>
      match content.toString? with
      | none => .error (.unreadable notText)
      | some document =>
        match parse document with
        | .error e => .error e
        | .ok _ => .ok (ofDocument document)
  else .ok nothing

/-- Whether two texts are the same but for the case of their letters. -/
def sameLetters (s t : String) : Bool := s.toList.map Char.toLower = t.toList.map Char.toLower

/-- What the environment says: of the variables that are set to texts, a number only if it can be
read, and the shape of log lines in letters of any case. -/
def ofEnvironment (env : Environment) : Words where
  baseUrl := env.text? "ORION_API_URL"
  timeoutSeconds := (env.text? "ORION_API_TIMEOUT").bind fun t => (Text.readU64 t).toOption
  defaultIntervalMs := (env.text? "ORION_POLL_INTERVAL_MS").bind fun t => (Text.readU64 t).toOption
  pauseWhenHidden := none
  level := env.text? "ORION_LOG_LEVEL"
  format :=
    (env.text? "ORION_LOG_FORMAT").bind fun t =>
      if sameLetters t "pretty" then some .pretty
      else if sameLetters t "json" then some .json
      else none
  components := none

/-- What the command line says. -/
def ofFlags (c : Connection) : Words :=
  { nothing with baseUrl := c.apiUrl, level := c.logLevel }

end Words

/-! ## The words of a document -/

section Reading

open Toml.Node (taken? sets_self sets_other eq_of_record)

variable {near : Toml.Span} {v : Node} {β : Type}

theorem baseUrl_of_readApi {a : ApiSettings} (h : readApi near v = .ok a) :
    a.baseUrl = ((v.part? (Words.valueNames "api") "base_url").bind
      (taken? Node.string)).getD default.api.baseUrl := by
  refine eq_of_record "base_url" (taken? Node.string) ApiSettings.baseUrl h (by decide) ?_
  refine List.forall_mem_cons.mpr ⟨?_, List.forall_mem_singleton.mpr ?_⟩
  · exact sets_self fun near v url h s => Node.placeless_string.taken? h
  · exact sets_other (by decide) fun s n => rfl

theorem timeoutSeconds_of_readApi {a : ApiSettings} (h : readApi near v = .ok a) :
    a.timeoutSeconds = ((v.part? (Words.valueNames "api") "timeout_seconds").bind
      fun w => (taken? Node.natural w).map some).getD default.api.timeoutSeconds := by
  refine eq_of_record "timeout_seconds" (fun w => (taken? Node.natural w).map some)
    ApiSettings.timeoutSeconds h (by decide) ?_
  refine List.forall_mem_cons.mpr ⟨?_, List.forall_mem_singleton.mpr ?_⟩
  · exact sets_other (by decide) fun s url => rfl
  · exact sets_self fun near v n h s => congrArg (Option.map some) (Node.placeless_natural.taken? h)

theorem defaultIntervalMs_of_readPolling {polling : PollingSettings}
    (h : readPolling near v = .ok polling) :
    polling.defaultIntervalMs = ((v.part? (Words.valueNames "polling") "default_interval_ms").bind
      (taken? Node.natural)).getD default.polling.defaultIntervalMs := by
  refine eq_of_record "default_interval_ms" (taken? Node.natural)
    PollingSettings.defaultIntervalMs h (by decide) ?_
  refine List.forall_mem_cons.mpr ⟨?_, List.forall_mem_singleton.mpr ?_⟩
  · exact sets_self fun near v n h s => Node.placeless_natural.taken? h
  · exact sets_other (by decide) fun s pause => rfl

theorem pauseWhenHidden_of_readPolling {polling : PollingSettings}
    (h : readPolling near v = .ok polling) :
    polling.pauseWhenHidden = ((v.part? (Words.valueNames "polling") "pause_when_hidden").bind
      (taken? Node.boolean)).getD default.polling.pauseWhenHidden := by
  refine eq_of_record "pause_when_hidden" (taken? Node.boolean)
    PollingSettings.pauseWhenHidden h (by decide) ?_
  refine List.forall_mem_cons.mpr ⟨?_, List.forall_mem_singleton.mpr ?_⟩
  · exact sets_other (by decide) fun s n => rfl
  · exact sets_self fun near v pause h s => Node.placeless_boolean.taken? h

theorem level_of_readLogging {logging : LogSettings} (h : readLogging near v = .ok logging) :
    logging.level = ((v.part? (Words.valueNames "logging") "level").bind
      (taken? Node.string)).getD default.logging.level := by
  refine eq_of_record "level" (taken? Node.string) LogSettings.level h (by decide) ?_
  refine List.forall_mem_cons.mpr ⟨?_, List.forall_mem_cons.mpr
    ⟨?_, List.forall_mem_singleton.mpr ?_⟩⟩
  · exact sets_self fun near v level h s => Node.placeless_string.taken? h
  · exact sets_other (by decide) fun s format => rfl
  · exact sets_other (by decide) fun s components => rfl

theorem format_of_readLogging {logging : LogSettings} (h : readLogging near v = .ok logging) :
    logging.format = ((v.part? (Words.valueNames "logging") "format").bind
      (taken? (Node.variant LogFormat.variants))).getD default.logging.format := by
  refine eq_of_record "format" (taken? (Node.variant LogFormat.variants)) LogSettings.format h
    (by decide) ?_
  refine List.forall_mem_cons.mpr ⟨?_, List.forall_mem_cons.mpr
    ⟨?_, List.forall_mem_singleton.mpr ?_⟩⟩
  · exact sets_other (by decide) fun s level => rfl
  · exact sets_self fun near v format h s => (Node.placeless_variant LogFormat.variants).taken? h
  · exact sets_other (by decide) fun s components => rfl

theorem components_of_readLogging {logging : LogSettings} (h : readLogging near v = .ok logging) :
    logging.components = ((v.part? (Words.valueNames "logging") "component_levels").bind
      fun w => ((taken? Node.strings w).map .ofList).map some).getD
        default.logging.components := by
  refine eq_of_record "component_levels"
    (fun w => ((taken? Node.strings w).map ComponentLevels.ofList).map some)
    LogSettings.components h (by decide) ?_
  refine List.forall_mem_cons.mpr ⟨?_, List.forall_mem_cons.mpr
    ⟨?_, List.forall_mem_singleton.mpr ?_⟩⟩
  · exact sets_other (by decide) fun s level => rfl
  · exact sets_other (by decide) fun s format => rfl
  · refine sets_self fun near v levels h s => ?_
    rw [Node.placeless_strings.taken? h]
    rfl

/-- Part of where the API is, from the group in the document, or else by default. -/
theorem api_of_read {s : Settings} (h : read near v = .ok s) (f : ApiSettings → β)
    (take : Node → β) (htake : ∀ ⦃near v a⦄, readApi near v = .ok a → take v = f a) :
    f s.api = ((v.part? Words.groupNames "api").bind fun w => some (take w)).getD
      (f default.api) := by
  refine eq_of_record "api" (fun w => some (take w)) (fun s => f s.api) h (by decide) ?_
  refine List.forall_mem_cons.mpr ⟨?_, List.forall_mem_cons.mpr
    ⟨?_, List.forall_mem_singleton.mpr ?_⟩⟩
  · exact sets_self fun near v api h s => congrArg some (htake h)
  · exact sets_other (by decide) fun s polling => rfl
  · exact sets_other (by decide) fun s logging => rfl

/-- Part of how queries poll, from the group in the document, or else by default. -/
theorem polling_of_read {s : Settings} (h : read near v = .ok s) (f : PollingSettings → β)
    (take : Node → β) (htake : ∀ ⦃near v p⦄, readPolling near v = .ok p → take v = f p) :
    f s.polling = ((v.part? Words.groupNames "polling").bind fun w => some (take w)).getD
      (f default.polling) := by
  refine eq_of_record "polling" (fun w => some (take w)) (fun s => f s.polling) h (by decide) ?_
  refine List.forall_mem_cons.mpr ⟨?_, List.forall_mem_cons.mpr
    ⟨?_, List.forall_mem_singleton.mpr ?_⟩⟩
  · exact sets_other (by decide) fun s api => rfl
  · exact sets_self fun near v polling h s => congrArg some (htake h)
  · exact sets_other (by decide) fun s logging => rfl

/-- Part of what is logged, from the group in the document, or else by default. -/
theorem logging_of_read {s : Settings} (h : read near v = .ok s) (f : LogSettings → β)
    (take : Node → β) (htake : ∀ ⦃near v l⦄, readLogging near v = .ok l → take v = f l) :
    f s.logging = ((v.part? Words.groupNames "logging").bind fun w => some (take w)).getD
      (f default.logging) := by
  refine eq_of_record "logging" (fun w => some (take w)) (fun s => f s.logging) h (by decide) ?_
  refine List.forall_mem_cons.mpr ⟨?_, List.forall_mem_cons.mpr
    ⟨?_, List.forall_mem_singleton.mpr ?_⟩⟩
  · exact sets_other (by decide) fun s api => rfl
  · exact sets_other (by decide) fun s polling => rfl
  · exact sets_self fun near v logging h s => congrArg some (htake h)

theorem getD_group (v : Option Node) (value : Node → Option Node) (take : Node → Option β)
    (b : β) :
    (v.bind fun w => some (((value w).bind take).getD b)).getD b =
      ((v.bind value).bind take).getD b := by
  cases v with
  | none => rfl
  | some w => rfl

theorem getD_bind_map_some (v : Option Node) (take : Node → Option β) (b : Option β) :
    (v.bind fun w => (take w).map some).getD b = (v.bind take).or b := by
  cases v with
  | none => rfl
  | some w =>
    rw [Option.bind_some, Option.bind_some]
    cases take w with
    | none => rfl
    | some a => rfl

/-- Settings that are read are what the document says, and what is so by default. -/
theorem eq_settings_of_read {s : Settings} (h : read near v = .ok s) :
    s = (Words.ofNode v).settings := by
  have hbaseUrl := api_of_read h ApiSettings.baseUrl _ fun near v a ha =>
    (baseUrl_of_readApi ha).symm
  have htimeout := api_of_read h ApiSettings.timeoutSeconds _ fun near v a ha =>
    (timeoutSeconds_of_readApi ha).symm
  have hinterval := polling_of_read h PollingSettings.defaultIntervalMs _ fun near v p hp =>
    (defaultIntervalMs_of_readPolling hp).symm
  have hpause := polling_of_read h PollingSettings.pauseWhenHidden _ fun near v p hp =>
    (pauseWhenHidden_of_readPolling hp).symm
  have hlevel := logging_of_read h LogSettings.level _ fun near v l hl =>
    (level_of_readLogging hl).symm
  have hformat := logging_of_read h LogSettings.format _ fun near v l hl =>
    (format_of_readLogging hl).symm
  have hcomponents := logging_of_read h LogSettings.components _ fun near v l hl =>
    (components_of_readLogging hl).symm
  rw [getD_group] at hbaseUrl htimeout hinterval hpause hlevel hformat hcomponents
  rw [getD_bind_map_some] at htimeout hcomponents
  show (⟨⟨s.api.baseUrl, s.api.timeoutSeconds⟩,
    ⟨s.polling.defaultIntervalMs, s.polling.pauseWhenHidden⟩,
    ⟨s.logging.level, s.logging.format, s.logging.components⟩⟩ : Settings) = _
  rw [hbaseUrl, htimeout, hinterval, hpause, hlevel, hformat, hcomponents]
  rfl

/-- Settings that a document holds are what it says, and what is so by default. -/
theorem eq_settings_of_parse {document : String} {s : Settings} (h : parse document = .ok s) :
    s = (Words.ofDocument document).settings := by
  unfold parse at h
  split at h
  · rename_i hdecode
    cases h
    simp only [Toml.decode] at hdecode
    split at hdecode
    · cases hdecode
    · rename_i entries hentries
      have hsettings := eq_settings_of_read hdecode
      simpa only [Words.ofDocument, hentries] using hsettings
  · cases h

end Reading

/-! ## Putting the sides together -/

theorem toLower_eq_iff {s t : String} (ht : t.toList.map Char.toLower = t.toList) :
    s.toLower = t ↔ Words.sameLetters s t = true := by
  have htext : s.toLower.toList = s.toList.map Char.toLower := String.toList_map
  rw [← String.toList_inj, htext, ← ht]
  exact decide_eq_true_iff.symm

/-- The shape of log lines is told by its name in letters of any case. -/
theorem ofText?_eq (t : String) :
    LogFormat.ofText? t =
      if Words.sameLetters t "pretty" then some .pretty
      else if Words.sameLetters t "json" then some .json
      else none := by
  have hpretty : t.toLower = "pretty" ↔ _ := toLower_eq_iff (by decide)
  have hjson : t.toLower = "json" ↔ _ := toLower_eq_iff (by decide)
  simp only [← hpretty, ← hjson, LogFormat.ofText?, LogFormat.variants]
  by_cases hp : t.toLower = "pretty"
  · rw [hp]
    rfl
  · rw [if_neg hp, List.lookup_cons, beq_eq_false_iff_ne.mpr hp]
    by_cases hj : t.toLower = "json"
    · rw [hj]
      rfl
    · rw [if_neg hj, List.lookup_cons, beq_eq_false_iff_ne.mpr hj]
      rfl

/-- What the environment says goes before what was said. -/
theorem withEnvironment_settings (env : Environment) (w : Words) :
    w.settings.withEnvironment env = ((Words.ofEnvironment env).orElse w).settings := by
  have htext (name : String) : variableOf env name some = env.text? name :=
    Option.bind_fun_some ..
  have hformat : variableOf env "ORION_LOG_FORMAT" LogFormat.ofText? =
      (Words.ofEnvironment env).format := by
    simp only [variableOf, Words.ofEnvironment, ← ofText?_eq]
  have hor (first second : Option Nat) : (first <|> second) = first.or second := by
    cases first with
    | none => rfl
    | some n => rfl
  simp only [withEnvironment, Words.settings, Words.orElse, htext, hformat, hor, Option.getD_or,
    Option.or_assoc]
  rfl

/-- What the command line says goes before what was said. -/
theorem withConnection_settings (c : Connection) (w : Words) :
    w.settings.withConnection c = ((Words.ofFlags c).orElse w).settings := by
  simp only [withConnection, Words.settings, Words.orElse, Words.ofFlags, Words.nothing,
    Option.getD_or, Option.none_or]

/-- The settings of a file that is there are what it says, and what is so by default. -/
theorem loadFile_eq {tree : FileTree} {path : Bytes} (hexists : tree.exists_ path = true) :
    loadFile tree path = (Words.ofFile tree path).map Words.settings := by
  simp only [loadFile, Words.ofFile, hexists, Bool.not_true, Bool.false_eq_true, if_true, if_false]
  cases tree.read? path with
  | error e => rfl
  | ok content =>
    cases htext : content.toString? with
    | none => simp [htext, Except.map]
    | some document =>
      cases hparse : parse document with
      | error e => simp [htext, hparse, Except.map]
      | ok s =>
        have hs := eq_settings_of_parse hparse
        simp [htext, hparse, Except.map, ← hs]

/-- The settings of a command are those of the command line, of the environment, of the file and the
default ones, value by value in this order, if they are fit for use. That a file cannot be used is
an error in any case. -/
theorem ofConnection_eq_merged (tree : FileTree) (env : Environment) (c : Connection) :
    ofConnection tree env c =
      match Words.ofFile tree c.config with
      | .error e => .error e
      | .ok file =>
        let merged := ((Words.ofFlags c).orElse ((Words.ofEnvironment env).orElse file)).settings
        match merged.validate with
        | .error e => .error e
        | .ok () => .ok merged := by
  have hbase : ofConnection tree env c =
      ((Words.ofFile tree c.config).map Words.settings >>= fun base => do
        let merged := (base.withEnvironment env).withConnection c
        merged.validate
        return merged) := by
    unfold ofConnection
    by_cases hexists : tree.exists_ c.config = true
    · rw [if_pos hexists, loadFile_eq hexists]
    · rw [if_neg hexists, Words.ofFile, if_neg hexists]
      rfl
  rw [hbase]
  cases Words.ofFile tree c.config with
  | error e => rfl
  | ok file =>
    simp only [Except.map, ok_bind, withEnvironment_settings, withConnection_settings]
    generalize ((Words.ofFlags c).orElse ((Words.ofEnvironment env).orElse file)).settings = merged
    cases merged.validate with
    | error e => rfl
    | ok u => rfl

end LiveQuery.Settings
