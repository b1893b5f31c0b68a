import LiveQuery.Program.Basic
import LiveQuery.Proofs.Files.Writing
import LiveQuery.Proofs.Settings.Template
import LiveQuery.Proofs.Text.Glyph

/-!
# Making a settings file

The file is made in pieces: what stands at the path is looked at, and then the file is written as a
whole. A `FileAttempt` does the pieces one after the other on the files; where a piece fails, what
the pieces before it have done stays done. `FileAttempt.run_settings` says that the attempt is what
`FileTree.initSettings` does, and `Program.files_configInit` that the program leaves the same files.

One deed of a course of such attempts, and of other writes, changes one place at most
(`FileDeed.after_cases`). From that follow, over a whole course, that every path leads where it led
(`FileTree.isPathTo_course_iff`), and that what stands at a place stays if nothing else is written
there (`FileTree.at?_course`).
-/

namespace LiveQuery

/-- Something done to files that may fail half-way; what it has done by then stays done. -/
abbrev FileAttempt (α : Type) := ExceptT InitError (StateM FileTree) α

namespace FileAttempt

/-- Looks whether something stands at a path. -/
def exists_ (path : Bytes) : FileAttempt Bool := return (← get).exists_ path

/-- Writes a whole file, or does nothing. -/
def write (path content : Bytes) : FileAttempt Unit := do
  match (← get).write? path content with
  | .ok after => set after
  | .error e => throw (.file e)

/-- Makes a settings file and says so; unless forced, only where nothing stands. -/
def settings (path : Bytes) (force : Bool) : FileAttempt String := do
  if (← exists_ path) && !force then throw (.exists_ path.toStringLossy)
  else
    write path (Bytes.ofString Settings.template)
    return createdMessage path

end FileAttempt

/-- What is done to files: a settings file is made, or any file is written. -/
inductive FileDeed where
  | settings (path : Bytes) (force : Bool)
  | file (path content : Bytes)

namespace FileDeed

def path : FileDeed → Bytes
  | settings path _ => path
  | file path _ => path

/-- The file that is to stand at the path afterwards. -/
def content : FileDeed → Bytes
  | settings _ _ => Bytes.ofString Settings.template
  | file _ content => content

/-- It spares what stands at its path. -/
def IsUnforced : FileDeed → Prop
  | settings _ force => force = false
  | file _ _ => False

/-- The files afterwards, whether it fails or not. -/
def after (tree : FileTree) : FileDeed → FileTree
  | settings path force => ((FileAttempt.settings path force).run tree).2
  | file path content => ((FileAttempt.write path content).run tree).2

end FileDeed

/-- The files after one deed after the other. -/
def FileTree.course (tree : FileTree) (deeds : List FileDeed) : FileTree :=
  deeds.foldl FileDeed.after tree

variable {tree after : FileTree} {path content : Bytes} {force : Bool} {p : Place}

/-! ## What one attempt does -/

/-- The file is made if it may be and can be written. -/
theorem FileTree.initSettings_eq_ok_iff :
    tree.initSettings path force = .ok after ↔
      (force = true ∨ tree.exists_ path = false) ∧
        tree.write? path (Bytes.ofString Settings.template) = .ok after := by
  have hrefused : (tree.exists_ path && !force) = true ↔
      ¬ (force = true ∨ tree.exists_ path = false) := by
    cases tree.exists_ path <;> cases force <;> simp
  unfold initSettings
  by_cases hmay : force = true ∨ tree.exists_ path = false
  · have hmade : ¬ (tree.exists_ path && !force) = true := by
      intro h
      exact hrefused.mp h hmay
    rw [if_neg hmade, and_iff_right hmay]
    cases tree.write? path (Bytes.ofString Settings.template) <;> simp
  · rw [if_pos (hrefused.mpr hmay)]
    simp [hmay]

/-- The file is made at the end of its path, where nothing stood unless it was forced. -/
theorem FileTree.isWritten_of_initSettings (h : tree.initSettings path force = .ok after) :
    ∃ p, tree.IsPathTo path p ∧ tree.IsWritten p (Bytes.ofString Settings.template) after ∧
      (force = false → tree.at? p = none) := by
  obtain ⟨hmay, hwrite⟩ := initSettings_eq_ok_iff.mp h
  obtain ⟨p, hpath, hwritten⟩ := isWritten_of_write? hwrite
  refine ⟨p, hpath, hwritten, ?_⟩
  intro hforce
  by_contra hat
  rw [hforce, (exists_iff_of_isPathTo hpath).mpr hat] at hmay
  simp at hmay

namespace FileAttempt

theorem run_write :
    (write path content).run tree =
      match tree.write? path content with
      | .ok after => (.ok (), after)
      | .error e => (.error (.file e), tree) := by
  have h : (write path content).run tree =
      (match tree.write? path content with
        | .ok after => set after
        | .error e => throw (.file e) : FileAttempt Unit).run tree := rfl
  rw [h]
  cases tree.write? path content <;> rfl

/-- The attempt is what the function for it does; where it fails, nothing has been done. -/
theorem run_settings :
    (settings path force).run tree =
      match tree.initSettings path force with
      | .ok after => (.ok (createdMessage path), after)
      | .error e => (.error e, tree) := by
  have h : (settings path force).run tree =
      (if tree.exists_ path && !force then throw (.exists_ path.toStringLossy)
      else do
        write path (Bytes.ofString Settings.template)
        return createdMessage path : FileAttempt String).run tree := rfl
  rw [h, FileTree.initSettings]
  by_cases hrefused : (tree.exists_ path && !force) = true
  · rw [if_pos hrefused, if_pos hrefused]
    rfl
  · rw [if_neg hrefused, if_neg hrefused, ExceptT.run_bind]
    simp only [bind, StateT.bind, run_write]
    cases tree.write? path (Bytes.ofString Settings.template) <;> rfl

variable {message : String} {e : InitError}

theorem settings_eq_error (h : ((settings path force).run tree).1 = .error e) :
    ((settings path force).run tree).2 = tree := by
  rw [run_settings] at h ⊢
  cases hinit : tree.initSettings path force with
  | error e => rfl
  | ok after =>
    rw [hinit] at h
    cases h

theorem settings_eq_ok_iff :
    ((settings path force).run tree).1 = .ok message ↔
      tree.initSettings path force = .ok ((settings path force).run tree).2 ∧
        message = createdMessage path := by
  rw [run_settings]
  cases tree.initSettings path force with
  | error e => simp
  | ok after => simp [eq_comm]

/-- An attempt succeeds exactly if it is forced or finds nothing at its path, and its path is one to a
place that can hold a file. -/
theorem settings_succeeds_iff :
    (∃ message, ((settings path force).run tree).1 = .ok message) ↔
      (force = true ∨ tree.exists_ path = false) ∧
        ∃ p, tree.IsPathTo path p ∧ tree.TakesFile p := by
  have hinit : (∃ message, ((settings path force).run tree).1 = .ok message) ↔
      ∃ after, tree.initSettings path force = .ok after := by
    rw [run_settings]
    cases tree.initSettings path force <;> simp
  rw [hinit]
  constructor
  · rintro ⟨after, h⟩
    obtain ⟨hmay, hwrite⟩ := FileTree.initSettings_eq_ok_iff.mp h
    obtain ⟨p, hpath, htakes, -⟩ := FileTree.write?_eq_ok_iff.mp hwrite
    exact ⟨hmay, p, hpath, htakes⟩
  · rintro ⟨hmay, p, hpath, htakes⟩
    refine ⟨tree.put p (Bytes.ofString Settings.template), ?_⟩
    rw [FileTree.initSettings_eq_ok_iff, FileTree.write?_eq_ok_iff]
    exact ⟨hmay, p, hpath, htakes, rfl⟩

end FileAttempt

/-- The program leaves the files that the attempt leaves. -/
theorem Program.files_configInit (world : Surroundings) (path : Bytes) (force : Bool) :
    ∃ ending, planCommand world (.configInit path force) = .done ending ∧
      ending.files = ((FileAttempt.settings path force).run world.files).2 := by
  simp only [planCommand, FileAttempt.run_settings]
  cases world.files.initSettings path force with
  | error e => exact ⟨_, rfl, rfl⟩
  | ok files => exact ⟨_, rfl, rfl⟩

/-- One deed changes nothing, or its file stands at the end of its path and everything else is as it
was. -/
theorem FileDeed.after_cases (tree : FileTree) (deed : FileDeed) :
    deed.after tree = tree ∨
      ∃ p, tree.IsPathTo deed.path p ∧ tree.IsWritten p deed.content (deed.after tree) ∧
        (deed.IsUnforced → tree.at? p = none) := by
  cases deed with
  | settings path force =>
    simp only [after, FileAttempt.run_settings]
    cases hinit : tree.initSettings path force with
    | error e => exact Or.inl rfl
    | ok made => exact Or.inr (FileTree.isWritten_of_initSettings hinit)
  | file path content =>
    simp only [after, FileAttempt.run_write]
    cases hwrite : tree.write? path content with
    | error e => exact Or.inl rfl
    | ok written =>
      obtain ⟨p, hpath, hwritten⟩ := FileTree.isWritten_of_write? hwrite
      exact Or.inr ⟨p, hpath, hwritten, False.elim⟩

/-! ## Courses -/

namespace FileTree

variable {deeds : List FileDeed} {q : Place} {node : FileNode}

/-- Every path leads where it led. -/
theorem isPathTo_after_iff (deed : FileDeed) :
    (deed.after tree).IsPathTo path p ↔ tree.IsPathTo path p := by
  rcases deed.after_cases tree with hsame | ⟨q, -, hwritten, -⟩
  · rw [hsame]
  · exact hwritten.isPathTo_iff

theorem isPathTo_course_iff : (tree.course deeds).IsPathTo path p ↔ tree.IsPathTo path p := by
  induction deeds generalizing tree with
  | nil => exact Iff.rfl
  | cons deed deeds ih => exact ih.trans (isPathTo_after_iff deed)

/-- What stands at a place stays unless something else is written there. -/
theorem at?_after {deed : FileDeed} (hat : tree.at? q = some node)
    (hspares : tree.IsPathTo deed.path q → deed.IsUnforced ∨ node = .file deed.content) :
    (deed.after tree).at? q = some node := by
  rcases deed.after_cases tree with hsame | ⟨p, hpath, hwritten, hunforced⟩
  · rw [hsame]
    exact hat
  · by_cases hq : q = p
    · subst hq
      rcases hspares hpath with hu | hnode
      · rw [hunforced hu] at hat
        cases hat
      · rw [hnode]
        exact hwritten.self
    · rw [hwritten.other q hq]
      exact hat

theorem at?_course (hat : tree.at? q = some node)
    (hspares : ∀ deed ∈ deeds, tree.IsPathTo deed.path q →
      deed.IsUnforced ∨ node = .file deed.content) :
    (tree.course deeds).at? q = some node := by
  induction deeds generalizing tree with
  | nil => exact hat
  | cons deed deeds ih =>
    apply ih
    · exact at?_after hat (hspares deed List.mem_cons_self)
    · -- A later path leads where it led before the first deed.
      intro later hlater hpath
      exact hspares later (List.mem_cons_of_mem _ hlater) ((isPathTo_after_iff deed).mp hpath)

/-- The settings of a file with a text are what the text says. -/
theorem load_of_text {document : String} (hpath : tree.IsPathTo path p)
    (hat : tree.at? p = some (.file (Bytes.ofString document))) :
    Settings.load tree (some path) = Settings.parse document := by
  have hexists : tree.exists_ path = true := by
    rw [exists_iff_of_isPathTo hpath, hat]
    exact Option.some_ne_none _
  have hread : tree.read? path = .ok (Bytes.ofString document) :=
    read?_eq_ok_iff.mpr ((stat_eq_ok_iff_of_isPathTo hpath).mpr hat)
  simp only [Settings.load, Settings.loadFile, hexists, hread, Bytes.toString?_ofString,
    Bool.not_true, Bool.false_eq_true, if_false]

/-- The settings of a file that has been made are the default ones, until another file is written
there. -/
theorem IsWritten.load_course (h : tree.IsWritten p (Bytes.ofString Settings.template) after)
    (hpath : tree.IsPathTo path p)
    (hlater : ∀ other content, .file other content ∈ deeds → ¬ tree.IsPathTo other p) :
    Settings.load (after.course deeds) (some path) = .ok Settings.default := by
  have hstays : (after.course deeds).at? p = some (.file (Bytes.ofString Settings.template)) := by
    apply at?_course h.self
    intro deed hdeed hthere
    cases deed with
    | settings => exact Or.inr rfl
    | file other content => exact absurd (h.isPathTo_iff.mp hthere) (hlater other content hdeed)
  rw [load_of_text (isPathTo_course_iff.mpr (h.isPathTo_iff.mpr hpath)) hstays]
  exact Settings.parse_template

end FileTree

/-! ## Never destroying anything -/

/-- Whatever has been done to files so far, what only attempts without force have led to is there as
before. An attempt that fails then leaves all files as they are. It succeeds exactly if it is forced
or finds nothing at its path, and its path is one to a place that can hold a file. Then its file is
the only change, nothing stood there unless it was forced, other paths find what they found, and the
settings of its path are the default ones until another file is written there. -/
theorem FileAttempt.settings_spares_files (tree : FileTree) (deeds : List FileDeed) (path : Bytes)
    (force : Bool) :
    let before := tree.course deeds
    let run := (settings path force).run before
    (∀ q node, tree.at? q = some node →
      (∀ deed ∈ deeds, tree.IsPathTo deed.path q → deed.IsUnforced) →
        before.at? q = some node) ∧
    (∀ e, run.1 = .error e → run.2 = before) ∧
    ((∃ message, run.1 = .ok message) ↔
      (force = true ∨ before.exists_ path = false) ∧
        ∃ p, before.IsPathTo path p ∧ before.TakesFile p) ∧
    ∀ message, run.1 = .ok message →
      message = createdMessage path ∧
      ∃ p, before.IsPathTo path p ∧
        before.IsWritten p (Bytes.ofString Settings.template) run.2 ∧
        (force = false → before.at? p = none) ∧
        (∀ other node, ¬ before.IsPathTo other p →
          (run.2.stat other = .ok node ↔ before.stat other = .ok node)) ∧
        ∀ later : List FileDeed,
          (∀ other content, .file other content ∈ later → ¬ before.IsPathTo other p) →
            Settings.load (run.2.course later) (some path) = .ok Settings.default := by
  intro before run
  refine ⟨?_, ?_, settings_succeeds_iff, ?_⟩
  · intro q node hat hunforced
    apply FileTree.at?_course hat
    intro deed hdeed hpath
    exact Or.inl (hunforced deed hdeed hpath)
  · intro e herror
    exact settings_eq_error herror
  · intro message hok
    obtain ⟨hinit, hmessage⟩ := settings_eq_ok_iff.mp hok
    obtain ⟨p, hpath, hwritten, hnothing⟩ := FileTree.isWritten_of_initSettings hinit
    refine ⟨hmessage, p, hpath, hwritten, hnothing, ?_, ?_⟩
    · intro other node hother
      exact hwritten.stat_iff hother
    · intro later hlater
      exact hwritten.load_course hpath hlater

/-- A file, and a directory beside it. -/
def FileTree.notes : FileTree :=
  ((empty.insert (Bytes.ofString "notes") (.file [])).insert (Bytes.ofString "etc") .directory)

/-- A settings file is not made in place of the notes, but in the directory beside them; making it
once more does not change its settings, and neither do other notes. -/
theorem FileAttempt.settings_spares_files_beside :
    let before := FileTree.notes.course [.settings (Bytes.ofString "notes") false]
    let run := (settings (Bytes.ofString "etc/orion.toml") false).run before
    before.at? (FileTree.place (Bytes.ofString "notes")) = some (.file []) ∧
    (∃ message, run.1 = .ok message) ∧
    Settings.load
        (run.2.course
          [.settings (Bytes.ofString "etc/orion.toml") true, .file (Bytes.ofString "notes") [33]])
        (some (Bytes.ofString "etc/orion.toml")) =
      .ok Settings.default := by
  intro before run
  have hpath : before.IsPathTo (Bytes.ofString "etc/orion.toml")
      (FileTree.place (Bytes.ofString "etc/orion.toml")) := ⟨by rfl, by decide +kernel⟩
  have hnotes : before.IsPathTo (Bytes.ofString "notes")
      (FileTree.place (Bytes.ofString "notes")) := ⟨by rfl, by decide +kernel⟩
  obtain ⟨hstays, -, hsucceeds, hmade⟩ := settings_spares_files FileTree.notes
    [.settings (Bytes.ofString "notes") false] (Bytes.ofString "etc/orion.toml") false
  have hok := hsucceeds.mpr
    ⟨Or.inr (by decide +kernel), _, hpath, Or.inl (by decide +kernel)⟩
  refine ⟨?_, hok, ?_⟩
  · apply hstays
    · decide +kernel
    · intro deed hdeed _
      rw [List.mem_singleton.mp hdeed]
      rfl
  · obtain ⟨message, hmessage⟩ := hok
    obtain ⟨-, p, hp, -, -, -, hload⟩ := hmade message hmessage
    obtain rfl := hpath.unique hp
    apply hload
    intro other content hother hthere
    have hfile : (other, content) = (Bytes.ofString "notes", [33]) := by simpa using hother
    cases hfile
    have hplaces : FileTree.place (Bytes.ofString "notes") ≠
        FileTree.place (Bytes.ofString "etc/orion.toml") := by decide +kernel
    exact hplaces (hnotes.unique hthere)

end LiveQuery
