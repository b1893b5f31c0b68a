import LiveQuery.Proofs.Toml.Document
import LiveQuery.Settings.Basic

/-!
# Settings as passages

Settings are written if their numbers fit (`toToml_eq_ok_iff`), and then as a document of passages
(`written_sections`): one for each group of settings, and one for what is said of single components.
-/

namespace LiveQuery.Settings

open Toml (Passage Scalar Reads Spells)

/-- What is said of single components, as values at their names. -/
def componentValues (c : ComponentLevels) : List (String × Scalar) :=
  c.levels.map fun l => (l.1, .string l.2)

/-- What a document says about where the API is. -/
def apiValues (a : ApiSettings) : List (String × Scalar) :=
  ("base_url", .string a.baseUrl)
    :: (a.timeoutSeconds.map fun n => ("timeout_seconds", Scalar.integer n)).toList

/-- What a document says about how queries poll. -/
def pollingValues (p : PollingSettings) : List (String × Scalar) :=
  [("default_interval_ms", .integer p.defaultIntervalMs),
    ("pause_when_hidden", .boolean p.pauseWhenHidden)]

/-- What a document says about what is logged, components apart. -/
def loggingValues (l : LogSettings) : List (String × Scalar) :=
  [("level", .string l.level), ("format", .string l.format.text)]

/-- The settings as passages. -/
def passages (s : Settings) : List Passage :=
  [⟨[], "api", apiValues s.api⟩, ⟨[], "polling", pollingValues s.polling⟩,
    ⟨[], "logging", loggingValues s.logging⟩]
    ++ (s.logging.components.map fun c =>
      Passage.mk ["logging"] "component_levels" (componentValues c)).toList

theorem toList_assignment (key value : String) :
    (assignment key value).toList =
      key.toList ++ ' ' :: '=' :: ' ' :: (value.toList ++ ['\n']) := by
  simp [assignment, toString]

theorem reads_assignment (key : String) {text : String} {value : Scalar}
    (h : Spells text.toList value) :
    Reads (assignment (Toml.writeKey key) text).toList (.assignment key value) := by
  rw [toList_assignment]
  exact Toml.reads_assignment key h

/-- A name of the settings needs no quotes. -/
theorem reads_field (key : String) (hkey : Toml.isBare key.toList = true) {text : String}
    {value : Scalar} (h : Spells text.toList value) :
    Reads (assignment key text).toList (.assignment key value) := by
  have hwrite : Toml.writeKey key = key := if_pos hkey
  have hread := reads_assignment key h
  rwa [hwrite] at hread

/-- A header and assignments are a passage. -/
theorem written_of_reads {header : List Char} {way : List String} {name : String}
    (hheader : Reads header (.header way name)) {texts : List (List Char)}
    (values : List (String × Scalar))
    (h : List.Forall₂ (fun text v => Reads text (.assignment v.1 v.2)) texts values) :
    Passage.Written (header ++ texts.flatten) ⟨way, name, values⟩ :=
  ⟨header :: texts, rfl, .cons hheader (List.forall₂_map_right_iff.mpr h)⟩

theorem written_api {a : ApiSettings} (h : ∀ n ∈ a.timeoutSeconds, n ≤ largest) :
    Passage.Written
      ("[api]\n" ++ assignment "base_url" (Toml.writeValue a.baseUrl)
        ++ ((a.timeoutSeconds.map fun n =>
          assignment "timeout_seconds" (toString n)).getD "")).toList
      ⟨[], "api", apiValues a⟩ := by
  have hheader : Reads "[api]\n".toList (.header [] "api") := Toml.reads_header "api"
  have hurl := reads_field "base_url" (by decide) (Toml.spells_string a.baseUrl)
  obtain ⟨baseUrl, timeoutSeconds⟩ := a
  cases timeoutSeconds with
  | none =>
    have hwritten := written_of_reads hheader (apiValues ⟨baseUrl, none⟩)
      (.cons hurl .nil)
    simpa [apiValues] using hwritten
  | some n =>
    have htimeout := reads_field "timeout_seconds" (by decide) (Toml.spells_nat (h n rfl))
    have hwritten := written_of_reads hheader (apiValues ⟨baseUrl, some n⟩)
      (.cons hurl (.cons htimeout .nil))
    simpa [apiValues] using hwritten

theorem written_polling {p : PollingSettings} (h : p.defaultIntervalMs ≤ largest) :
    Passage.Written
      ("[polling]\n" ++ assignment "default_interval_ms" (toString p.defaultIntervalMs)
        ++ assignment "pause_when_hidden" (Text.truth p.pauseWhenHidden)).toList
      ⟨[], "polling", pollingValues p⟩ := by
  have hheader : Reads "[polling]\n".toList (.header [] "polling") := Toml.reads_header "polling"
  have hinterval := reads_field "default_interval_ms" (by decide) (Toml.spells_nat h)
  have hpause := reads_field "pause_when_hidden" (by decide) (Toml.spells_truth p.pauseWhenHidden)
  have hwritten := written_of_reads hheader (pollingValues p)
    (.cons hinterval (.cons hpause .nil))
  simpa [pollingValues] using hwritten

theorem written_logging (l : LogSettings) :
    Passage.Written
      ("[logging]\n" ++ assignment "level" (Toml.writeValue l.level)
        ++ assignment "format" (Toml.writeValue l.format.text)).toList
      ⟨[], "logging", loggingValues l⟩ := by
  have hheader : Reads "[logging]\n".toList (.header [] "logging") := Toml.reads_header "logging"
  have hlevel := reads_field "level" (by decide) (Toml.spells_string l.level)
  have hformat := reads_field "format" (by decide) (Toml.spells_string l.format.text)
  have hwritten := written_of_reads hheader (loggingValues l)
    (.cons hlevel (.cons hformat .nil))
  simpa [loggingValues] using hwritten

theorem reads_componentHeader : Reads "[logging.component_levels]\n".toList
    (.header ["logging"] "component_levels") := by
  have hread := Toml.reads_subheader "logging" "component_levels"
  have hway : Toml.writeKey "logging" = "logging" := if_pos (by decide)
  have hname : Toml.writeKey "component_levels" = "component_levels" := if_pos (by decide)
  rw [hway, hname] at hread
  simpa using hread

theorem toList_append_join (header : String) (texts : List String) :
    (header ++ String.join texts).toList = header.toList ++ (texts.map String.toList).flatten := by
  rw [String.toList_append, String.toList_join, List.flatMap_def]

theorem written_components (c : ComponentLevels) :
    Passage.Written (componentSection c).toList
      ⟨["logging"], "component_levels", componentValues c⟩ := by
  have hlevels : List.Forall₂ (fun text (v : String × Scalar) => Reads text (.assignment v.1 v.2))
      (c.levels.map fun l => (assignment (Toml.writeKey l.1) (Toml.writeValue l.2)).toList)
      (componentValues c) := by
    rw [componentValues, List.forall₂_map_right_iff, List.forall₂_map_left_iff]
    exact List.forall₂_same.mpr fun l _ => reads_assignment l.1 (Toml.spells_string l.2)
  have htext := toList_append_join "[logging.component_levels]\n"
    (c.levels.map fun l => assignment (Toml.writeKey l.1) (Toml.writeValue l.2))
  have hwritten := written_of_reads reads_componentHeader (componentValues c) hlevels
  unfold componentSection
  rw [htext, List.map_map]
  exact hwritten

/-- The sections of the settings are the passages. -/
theorem written_sections {s : Settings} (htimeout : ∀ n ∈ s.api.timeoutSeconds, n ≤ largest)
    (hinterval : s.polling.defaultIntervalMs ≤ largest) :
    List.Forall₂ Passage.Written (s.sections.map String.toList) s.passages := by
  have hlast : List.Forall₂ Passage.Written
      ((s.logging.components.map componentSection).toList.map String.toList)
      (s.logging.components.map fun c =>
        Passage.mk ["logging"] "component_levels" (componentValues c)).toList := by
    cases s.logging.components with
    | none => exact .nil
    | some c => exact .cons (written_components c) .nil
  rw [sections, List.map_append]
  exact .cons (written_api htimeout)
    (.cons (written_polling hinterval) (.cons (written_logging s.logging) hlast))

/-- The settings are written if their numbers fit, as the sections with line breaks between them. -/
theorem toToml_eq_ok_iff {s : Settings} {document : String} :
    s.toToml = .ok document ↔
      ((∀ n ∈ s.api.timeoutSeconds, n ≤ largest) ∧ s.polling.defaultIntervalMs ≤ largest) ∧
        "\n".intercalate s.sections = document := by
  have hall : s.api.timeoutSeconds.all (· ≤ largest) = true ↔
      ∀ n ∈ s.api.timeoutSeconds, n ≤ largest := by
    simp [Option.all_eq_true]
  rw [toToml, ← hall]
  split
  case isTrue h => simp [h]
  case isFalse h => simp [h]

end LiveQuery.Settings
