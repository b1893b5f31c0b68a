import LiveQuery.Proofs.Settings.Rendering
import LiveQuery.Proofs.Toml.Scalars

/-!
# Settings read back

Settings are read from the tables that their passages make, and so from what is written
(`parse_toToml`).
-/

namespace LiveQuery.Settings

open Toml (Span Key Node Origin Entries)

/-! ## Reading groups of settings -/

theorem readApi_of_entries {a : ApiSettings} {es : Entries}
    (h : List.Forall₂ Toml.Entry.Says es (apiValues a)) (near : Span) (origin : Origin)
    (span : Option Span) : readApi near (.table origin es span) = .ok a := by
  obtain ⟨baseUrl, timeoutSeconds⟩ := a
  obtain - | ⟨⟨⟩, htimeout⟩ := h
  rw [readApi, Node.record_cons rfl rfl]
  cases timeoutSeconds with
  | none =>
    cases htimeout
    exact Node.record_nil ..
  | some n =>
    obtain - | ⟨⟨⟩, hend⟩ := htimeout
    cases hend
    rw [Node.record_cons rfl (congrArg (· >>= _) (Node.natural_integer ..))]
    exact Node.record_nil ..

theorem readPolling_of_entries {p : PollingSettings} {es : Entries}
    (h : List.Forall₂ Toml.Entry.Says es (pollingValues p)) (near : Span) (origin : Origin)
    (span : Option Span) : readPolling near (.table origin es span) = .ok p := by
  obtain - | ⟨⟨⟩, hpause⟩ := h
  obtain - | ⟨⟨⟩, hend⟩ := hpause
  cases hend
  rw [readPolling, Node.record_cons rfl (congrArg (· >>= _) (Node.natural_integer ..)), Node.record_cons rfl rfl]
  exact Node.record_nil ..

/-! ## Reading settings -/

/-- Entries about single components. -/
inductive ComponentsSay : Entries → Option ComponentLevels → Prop
  | none : ComponentsSay [] none
  | some {place : Span} {origin : Origin} {values : Entries} {span : Option Span}
      {c : ComponentLevels} (h : List.Forall₂ Toml.Entry.Says values (componentValues c)) :
    ComponentsSay [(⟨"component_levels", place⟩, .table origin values span)] (some c)

theorem ofList_levels (c : ComponentLevels) : ComponentLevels.ofList c.levels = c := by
  obtain ⟨levels, hnodup⟩ := c
  simp only [ComponentLevels.ofList, keepAll_of_nodup hnodup]

theorem ofName_text (f : LogFormat) (span : Span) :
    Node.ofName LogFormat.variants f.text span = .ok f := by
  cases f <;> rfl

theorem readLogging_of_entries {l : LogSettings} {es components : Entries}
    (h : List.Forall₂ Toml.Entry.Says es (loggingValues l))
    (hcomponents : ComponentsSay components l.components) (near : Span) (origin : Origin)
    (span : Option Span) : readLogging near (.table origin (es ++ components) span) = .ok l := by
  obtain ⟨level, format, levels⟩ := l
  obtain - | ⟨⟨⟩, hformat⟩ := h
  obtain - | ⟨⟨⟩, hend⟩ := hformat
  cases hend
  rw [readLogging, List.cons_append, List.cons_append, List.nil_append, Node.record_cons rfl rfl,
    Node.record_cons rfl (congrArg (· >>= _) (ofName_text ..))]
  cases hcomponents with
  | none => exact Node.record_nil ..
  | some hlevels =>
    rw [Node.record_cons rfl (congrArg (· >>= _) (Node.strings_of_entries hlevels ..)), ofList_levels]
    exact Node.record_nil ..

/-- Entries that say what settings are. -/
inductive Says : Entries → Settings → Prop
  | mk {s : Settings} {api polling logging components : Entries} {k₁ k₂ k₃ : Span}
      {span₁ span₂ span₃ : Option Span}
      (hapi : List.Forall₂ Toml.Entry.Says api (apiValues s.api))
      (hpolling : List.Forall₂ Toml.Entry.Says polling (pollingValues s.polling))
      (hlogging : List.Forall₂ Toml.Entry.Says logging (loggingValues s.logging))
      (hcomponents : ComponentsSay components s.logging.components) :
    Says [(⟨"api", k₁⟩, .table .header api span₁), (⟨"polling", k₂⟩, .table .header polling span₂),
      (⟨"logging", k₃⟩, .table .header (logging ++ components) span₃)] s

theorem read_of_entries {es : Entries} {s : Settings} (h : Says es s) (near : Span)
    (origin : Origin) (span : Option Span) : read near (.table origin es span) = .ok s := by
  obtain ⟨hapi, hpolling, hlogging, hcomponents⟩ := h
  rw [read, Node.record_cons rfl (congrArg (· >>= _) (readApi_of_entries hapi ..)),
    Node.record_cons rfl (congrArg (· >>= _) (readPolling_of_entries hpolling ..)),
    Node.record_cons rfl (congrArg (· >>= _) (readLogging_of_entries hlogging hcomponents ..))]
  exact Node.record_nil ..

theorem nodup_apiValues (a : ApiSettings) : ((apiValues a).map Prod.fst).Nodup := by
  obtain ⟨baseUrl, timeoutSeconds⟩ := a
  cases timeoutSeconds with
  | none => simp [apiValues]
  | some n => simp [apiValues]

theorem nodup_componentValues (c : ComponentLevels) : ((componentValues c).map Prod.fst).Nodup := by
  rw [componentValues, List.map_map]
  exact c.nodup

/-- A section about single components, if there is one, adds to the table of what is logged. -/
theorem exists_addComponents {l : LogSettings} {sections : List Toml.Section}
    (h : List.Forall₂ Toml.Section.Says sections (l.components.map fun c =>
      Toml.Passage.mk ["logging"] "component_levels" (componentValues c)).toList)
    {logging : Entries} (hlogging : List.Forall₂ Toml.Entry.Says logging (loggingValues l))
    (es : Entries) (hes : "logging" ∉ es.map fun e => e.1.name) (place : Span)
    (span : Option Span) :
    ∃ components,
      sections.foldlM Entries.addSection (es ++ [(⟨"logging", place⟩, .table .header logging span)])
        = .ok (es ++ [(⟨"logging", place⟩, .table .header (logging ++ components) span)]) ∧
      ComponentsSay components l.components := by
  obtain ⟨level, format, components⟩ := l
  cases components with
  | none =>
    cases h
    exact ⟨[], by rw [List.append_nil]; rfl, .none⟩
  | some c =>
    obtain - | ⟨hsection, hend⟩ := h
    cases hend
    have hnew : "component_levels" ∉ logging.map fun e => e.1.name := by
      rw [Entries.names_of_forall₂ hlogging]
      simp [loggingValues]
    obtain ⟨k, levels, stretch, hadd, hlevels⟩ :=
      Entries.exists_addSection_below hsection (nodup_componentValues c) es logging place span hes
        hnew
    refine ⟨[(⟨"component_levels", k⟩, .table .header levels (some stretch))], ?_, .some hlevels⟩
    rw [List.foldlM_cons, hadd]
    rfl

/-- Sections that say the passages of settings are put together to entries that say the settings. -/
theorem exists_says_of_sections {s : Settings} {sections : List Toml.Section}
    (h : List.Forall₂ Toml.Section.Says sections s.passages) :
    ∃ es, Entries.ofSections [] sections = .ok es ∧ Says es s := by
  obtain - | ⟨hapi, h⟩ := h
  obtain - | ⟨hpolling, h⟩ := h
  obtain - | ⟨hlogging, h⟩ := h
  -- Three sections add tables one after the other; a fourth one adds to the last of these.
  obtain ⟨k₁, api, span₁, haddApi, hapi⟩ :=
    Entries.exists_addSection hapi (nodup_apiValues s.api) [] (by simp)
  obtain ⟨k₂, polling, span₂, haddPolling, hpolling⟩ :=
    Entries.exists_addSection hpolling (by simp [pollingValues])
      [(⟨"api", k₁⟩, .table .header api (some span₁))] (by simp)
  obtain ⟨k₃, logging, span₃, haddLogging, hlogging⟩ :=
    Entries.exists_addSection hlogging (by simp [loggingValues])
      [(⟨"api", k₁⟩, .table .header api (some span₁)),
        (⟨"polling", k₂⟩, .table .header polling (some span₂))] (by simp)
  obtain ⟨components, haddComponents, hcomponents⟩ :=
    exists_addComponents h hlogging [(⟨"api", k₁⟩, .table .header api (some span₁)),
      (⟨"polling", k₂⟩, .table .header polling (some span₂))] (by simp) k₃ (some span₃)
  have hfront : Entries.assignAll [] [] = .ok [] := rfl
  simp only [List.nil_append, List.cons_append] at haddApi haddPolling haddLogging haddComponents
  rw [Entries.ofSections, hfront, ok_bind, List.foldlM_cons, haddApi, ok_bind, List.foldlM_cons,
    haddPolling, ok_bind, List.foldlM_cons, haddLogging, ok_bind]
  exact ⟨_, haddComponents, .mk hapi hpolling hlogging hcomponents⟩

/-- The text of settings starts with a header, so it has no mark of its byte order. -/
theorem skipMark_sections (s : Settings) :
    Toml.skipMark (['\n'].intercalate (s.sections.map String.toList)) =
      ['\n'].intercalate (s.sections.map String.toList) := by
  obtain ⟨rest, hrest⟩ :
      ∃ rest, ['\n'].intercalate (s.sections.map String.toList) = '[' :: rest := by
    have hhead : "[api]\n".toList = ['[', 'a', 'p', 'i', ']', '\n'] := rfl
    rw [sections, List.map_append, List.map_cons, List.map_cons, List.cons_append, List.cons_append,
      List.intercalate_cons_cons, String.toList_append, String.toList_append, hhead]
    exact ⟨_, rfl⟩
  rw [hrest]
  rfl

/-- A document of sections that say the passages of settings is read as these settings. -/
theorem parse_of_sections {s : Settings} {document : String} {sections : List Toml.Section}
    (hdocument : Toml.readDocument document.toList = Entries.ofSections [] sections)
    (h : List.Forall₂ Toml.Section.Says sections s.passages) : parse document = .ok s := by
  obtain ⟨es, hes, hsays⟩ := exists_says_of_sections h
  simp only [parse, Toml.decode, hdocument, hes, read_of_entries hsays]

/-- Settings that are written are read back as they are. -/
theorem parse_of_toToml {s : Settings} {document : String} (h : s.toToml = .ok document) :
    parse document = .ok s := by
  obtain ⟨⟨htimeout, hinterval⟩, rfl⟩ := toToml_eq_ok_iff.mp h
  obtain ⟨sections, hdocument, hsections⟩ :=
    Toml.exists_readDocument (written_sections htimeout hinterval) (skipMark_sections s)
  rw [← String.toList_singleton, ← String.toList_intercalate] at hdocument
  exact parse_of_sections hdocument hsections

/-! ## Numbers that are read -/

theorem timeout_le_of_readApi {near : Span} {v : Node} {a : ApiSettings}
    (hv : v.All Toml.Scalar.Fits) (h : readApi near v = .ok a) :
    ∀ n ∈ a.timeoutSeconds, n ≤ largest := by
  refine Node.record_induct (q := fun a => ∀ n ∈ a.timeoutSeconds, n ≤ largest) (fun _ => trivial)
    hv (List.forall_mem_cons.mpr ⟨?url, List.forall_mem_singleton.mpr ?timeout⟩) ?default h
  case url =>
    intro near v a a' _ ha hread
    obtain ⟨url, -, rfl⟩ := bind_pure_eq_ok.mp hread
    exact ha
  case timeout =>
    intro near v a a' hv _ hread n hn
    obtain ⟨m, hm, rfl⟩ := bind_pure_eq_ok.mp hread
    cases hn
    exact Toml.natural_le_of_fits hv hm
  case default =>
    intro n hn
    cases hn

theorem interval_le_of_readPolling {near : Span} {v : Node} {polling : PollingSettings}
    (hv : v.All Toml.Scalar.Fits) (h : readPolling near v = .ok polling) :
    polling.defaultIntervalMs ≤ largest := by
  refine Node.record_induct (q := fun polling => polling.defaultIntervalMs ≤ largest)
    (fun _ => trivial) hv
    (List.forall_mem_cons.mpr ⟨?interval, List.forall_mem_singleton.mpr ?pause⟩) ?default h
  case interval =>
    intro near v polling polling' hv _ hread
    obtain ⟨n, hn, rfl⟩ := bind_pure_eq_ok.mp hread
    exact Toml.natural_le_of_fits hv hn
  case pause =>
    intro near v polling polling' _ hpolling hread
    obtain ⟨pause, -, rfl⟩ := bind_pure_eq_ok.mp hread
    exact hpolling
  case default => decide

/-- The numbers of settings that are read fit into a document. -/
theorem numbers_le_of_read {near : Span} {v : Node} {s : Settings} (hv : v.All Toml.Scalar.Fits)
    (h : read near v = .ok s) :
    (∀ n ∈ s.api.timeoutSeconds, n ≤ largest) ∧ s.polling.defaultIntervalMs ≤ largest := by
  refine Node.record_induct
    (q := fun s =>
      (∀ n ∈ s.api.timeoutSeconds, n ≤ largest) ∧ s.polling.defaultIntervalMs ≤ largest)
    (fun _ => trivial) hv
    (List.forall_mem_cons.mpr ⟨?api, List.forall_mem_cons.mpr
      ⟨?polling, List.forall_mem_singleton.mpr ?logging⟩⟩) ?default h
  case api =>
    intro near v s s' hv hs hread
    obtain ⟨api, hapi, rfl⟩ := bind_pure_eq_ok.mp hread
    exact ⟨timeout_le_of_readApi hv hapi, hs.2⟩
  case polling =>
    intro near v s s' hv hs hread
    obtain ⟨polling, hpolling, rfl⟩ := bind_pure_eq_ok.mp hread
    exact ⟨hs.1, interval_le_of_readPolling hv hpolling⟩
  case logging =>
    intro near v s s' _ hs hread
    obtain ⟨logging, -, rfl⟩ := bind_pure_eq_ok.mp hread
    exact hs
  case default =>
    have hinterval : default.polling.defaultIntervalMs ≤ largest := by decide
    refine ⟨fun n hn => ?_, hinterval⟩
    cases hn

/-- Settings that are read from a document can be written. -/
theorem exists_toToml_of_parse {document : String} {s : Settings} (h : parse document = .ok s) :
    ∃ written, s.toToml = .ok written := by
  rw [parse] at h
  split at h
  · rename_i hdecode
    cases h
    simp only [Toml.decode] at hdecode
    split at hdecode
    · cases hdecode
    · rename_i hes
      have hfits := Toml.fits_of_readDocument hes
      exact ⟨_, toToml_eq_ok_iff.mpr ⟨numbers_le_of_read (.table hfits) hdecode, rfl⟩⟩
  · cases h

/-- Settings can be written exactly if their numbers fit into a document; what is written is read
back as the same settings, with the components in their order. What is read from any document can be
written, and is read back. -/
theorem parse_toToml (s : Settings) :
    ((∃ document, s.toToml = .ok document) ↔
      (∀ n ∈ s.api.timeoutSeconds, n ≤ largest) ∧ s.polling.defaultIntervalMs ≤ largest) ∧
    (∀ document, s.toToml = .ok document → parse document = .ok s) ∧
    ((∃ document, parse document = .ok s) →
      ∃ written, s.toToml = .ok written ∧ parse written = .ok s) := by
  refine ⟨?_, fun document h => parse_of_toToml h, ?_⟩
  · simp only [toToml_eq_ok_iff, exists_and_left, exists_eq', and_true]
  · rintro ⟨document, h⟩
    obtain ⟨written, hwritten⟩ := exists_toToml_of_parse h
    exact ⟨written, hwritten, parse_of_toToml hwritten⟩

end LiveQuery.Settings
