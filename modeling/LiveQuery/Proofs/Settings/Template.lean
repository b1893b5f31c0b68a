import LiveQuery.Proofs.Settings.Rereading
import LiveQuery.Settings.Template

/-!
# The settings file to start from

Read line by line, the template says the sections that the default settings are written as, with
remarks between them (`Settings.templateLines_say`), so that its text is read as the default
settings: `Settings.parse_template`.
-/

namespace LiveQuery

namespace Settings

open Toml (Content Passage Reads SayAmongRemarks)

/-! ## What the template says -/

/-- The lines of the template are the default settings with remarks between them. -/
theorem templateLines_say :
    SayAmongRemarks templateLines (default.passages.flatMap Passage.contents) := by
  have hurl := reads_field "base_url" (by decide) (Toml.spells_string default.api.baseUrl)
  have hinterval := reads_field "default_interval_ms" (by decide)
    (Toml.spells_nat (n := default.polling.defaultIntervalMs) (by decide))
  have hpause := reads_field "pause_when_hidden" (by decide)
    (Toml.spells_truth default.polling.pauseWhenHidden)
  have hlevel := reads_field "level" (by decide) (Toml.spells_string default.logging.level)
  have hformat := reads_field "format" (by decide) (Toml.spells_string default.logging.format.text)
  exact .remark rfl <| .remark rfl <| .remark rfl <| .remark rfl <| .remark rfl <| .remark rfl <|
    .remark rfl <|
    .line (Toml.reads_header "api") <| .line hurl <| .remark rfl <| .remark rfl <| .remark rfl <|
    .line (Toml.reads_header "polling") <| .remark rfl <| .remark rfl <| .line hinterval <|
    .remark rfl <| .line hpause <| .remark rfl <|
    .line (Toml.reads_header "logging") <| .line hlevel <| .line hformat <|
    .remark rfl <| .remark rfl <| .remark rfl <| .remark rfl .nil

theorem toList_template :
    template.toList = (templateLines.map fun line => line.toList ++ ['\n']).flatten := by
  rw [template, String.toList_join, List.flatMap_def, List.map_map]
  congr 2
  funext line
  exact String.toList_append

/-- What the template says are the default settings. -/
theorem parse_template : parse template = .ok default := by
  obtain ⟨cs, hlines, hgather⟩ := templateLines_say.exists_contents
  have hpassages : Content.gather (default.passages.flatMap Passage.contents) =
      ([], default.passages) := rfl
  have hmark : Toml.skipMark (templateLines.map fun line => line.toList ++ ['\n']).flatten =
      (templateLines.map fun line => line.toList ++ ['\n']).flatten := rfl
  obtain ⟨sections, hread, hsections⟩ :=
    Toml.exists_readDocument_flatten hlines (hgather.trans hpassages) hmark
  rw [← toList_template] at hread
  exact parse_of_sections hread hsections

end Settings
end LiveQuery
