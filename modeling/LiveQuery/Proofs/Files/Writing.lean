import LiveQuery.FileTree
import LiveQuery.Proofs.Success
import Mathlib.Data.List.Infix

/-!
# Writing a file

A path leads through directories only (`FileTree.directoryAbove_of_walk`), so that a file that is
written at its end stands below no other file. The tree afterwards is the one before but for that
file (`FileTree.IsWritten`), and every path leads where it led.
-/

namespace LiveQuery

namespace Place

variable {p q : Place} {name : Bytes}

theorem isBelow_iff :
    p.isBelow q = true ↔
      p.fromRoot = q.fromRoot ∧ p.up = q.up ∧ q.names <+: p.names ∧ p.names ≠ q.names := by
  simp only [isBelow, Bool.and_eq_true, decide_eq_true_eq, List.isPrefixOf_iff_prefix, and_assoc]

theorem not_isBelow_of_names_eq_nil (h : p.names = []) : ¬ p.isBelow q = true := by
  intro hbelow
  obtain ⟨-, -, hprefix, hne⟩ := isBelow_iff.mp hbelow
  rw [h] at hprefix hne
  exact hne (List.prefix_nil.mp hprefix).symm

/-- What lies above a name in a directory is the directory, or lies above it. -/
theorem isBelow_child (h : (p.child name).isBelow q = true) : q = p ∨ p.isBelow q = true := by
  obtain ⟨hroot, hup, hprefix, hne⟩ := isBelow_iff.mp h
  rcases List.prefix_concat_iff.mp hprefix with heq | hprefix
  · exact absurd heq.symm hne
  · -- What is a beginning of the names but the last one is all of them, or a shorter beginning.
    by_cases hnames : p.names = q.names
    · left
      obtain ⟨fromRoot, up, names⟩ := p
      obtain ⟨fromRoot', up', names'⟩ := q
      cases hroot
      cases hup
      cases hnames
      rfl
    · exact Or.inr (isBelow_iff.mpr ⟨hroot, hup, hprefix, hnames⟩)

/-- What lies above the directory of a place lies above the place. -/
theorem isBelow_of_parent (h : p.parent.isBelow q = true) : p.isBelow q = true := by
  unfold parent at h
  split at h
  · rename_i hempty
    exact absurd h (not_isBelow_of_names_eq_nil (List.isEmpty_iff.mp hempty))
  · obtain ⟨hroot, hup, hprefix, hne⟩ := isBelow_iff.mp h
    have hlonger : p.names ≠ q.names := by
      intro hnames
      apply hne
      have hlast : p.names.dropLast <+: q.names := hnames ▸ List.dropLast_prefix p.names
      exact List.IsPrefix.eq_of_length_le hlast hprefix.length_le
    exact isBelow_iff.mpr ⟨hroot, hup, hprefix.trans (List.dropLast_prefix p.names), hlonger⟩

end Place

namespace FileTree

variable {tree after : FileTree} {p q : Place} {path content : Bytes}

/-! ## Where paths lead -/

/-- Whatever lies above a place is a directory. -/
def DirectoryAbove (tree : FileTree) (p : Place) : Prop :=
  ∀ q, p.isBelow q = true → tree.at? q = some .directory

/-- One name leads on from a directory. -/
theorem enter_eq_ok_iff {name : Bytes} :
    tree.enter p name = .ok q ↔
      tree.at? p = some .directory ∧
        (if name = [dot] then .ok p
          else if name = [dot, dot] then .ok p.parent
          else if maxName < name.length then .error .nameTooLong
          else .ok (p.child name)) = Except.ok (ε := FileError) q := by
  unfold enter
  split
  case h_4 hat => rw [hat, and_iff_right rfl]
  case h_1 hat | h_2 hat | h_3 hat => simp [hat]

theorem directoryAbove_of_enter {name : Bytes} (h : tree.DirectoryAbove p)
    (henter : tree.enter p name = .ok q) : tree.DirectoryAbove q := by
  obtain ⟨hat, hq⟩ := enter_eq_ok_iff.mp henter
  split at hq
  · cases hq
    exact h
  split at hq
  · cases hq
    intro r hr
    exact h r (Place.isBelow_of_parent hr)
  split at hq
  · cases hq
  · cases hq
    intro r hr
    rcases Place.isBelow_child hr with rfl | hr
    · exact hat
    · exact h r hr

theorem directoryAbove_of_foldlM {names : List Bytes} (hnames : p.names = [])
    (h : names.foldlM tree.enter p = .ok q) : tree.DirectoryAbove q := by
  refine foldlM_induct (fun _ _ _ _ habove henter => directoryAbove_of_enter habove henter) ?_ h
  intro r hr
  exact absurd hr (Place.not_isBelow_of_names_eq_nil hnames)

theorem directoryAbove_of_walk (h : tree.walk path = .ok p) : tree.DirectoryAbove p := by
  unfold walk at h
  split_ifs at h
  · exact directoryAbove_of_foldlM rfl h
  · exact directoryAbove_of_foldlM rfl h

/-! ## What stands in a tree with another file -/

/-- A place can hold a file: there is nothing, or there is a file that may be used. -/
def TakesFile (tree : FileTree) (p : Place) : Prop :=
  tree.at? p = none ∨ ∃ content, tree.at? p = some (.file content)

theorem TakesFile.ne_directory (h : tree.TakesFile p) : tree.at? p ≠ some .directory := by
  rcases h with h | ⟨content, h⟩ <;> simp [h]

theorem TakesFile.names_ne_nil (h : tree.TakesFile p) : p.names ≠ [] := by
  intro hnames
  apply h.ne_directory
  rw [at?, hnames]
  rfl

theorem at?_put_self (hnames : p.names ≠ []) :
    (tree.put p content).at? p = some (.file content) := by
  have hempty : p.names.isEmpty = false := by simpa using hnames
  simp [at?, put, hempty]

/-- An entry for another place is found as before. -/
theorem lookup_put_of_ne (hne : q ≠ p) :
    (tree.put p content).entries.lookup q = tree.entries.lookup q := by
  have hkept (es : List (Place × FileNode)) :
      (es.filter fun e => e.1 ≠ p).lookup q = es.lookup q := by
    induction es with
    | nil => rfl
    | cons e es ih =>
      obtain ⟨k, node⟩ := e
      by_cases hk : k = p
      · have hbeq : (q == k) = false := by simp [hk, hne]
        rw [List.filter_cons_of_neg (by simp [hk]), ih, List.lookup_cons, hbeq]
      · rw [List.filter_cons_of_pos (by simp [hk]), List.lookup_cons, List.lookup_cons, ih]
  have hbeq : (q == p) = false := by simp [hne]
  rw [put, List.lookup_cons, hbeq]
  exact hkept tree.entries

/-- Unless the file itself lies below a place, the same entries do. -/
theorem any_isBelow_put (hbelow : ¬ p.isBelow q = true) :
    ((tree.put p content).entries.any fun e => e.1.isBelow q) =
      tree.entries.any fun e => e.1.isBelow q := by
  rw [Bool.eq_iff_iff, put, List.any_cons, List.any_filter, Bool.or_eq_true, or_iff_right hbelow]
  simp only [List.any_eq_true, Bool.and_eq_true, decide_eq_true_eq]
  refine exists_congr fun e => and_congr_right fun _ => and_iff_right_of_imp ?_
  intro he hp
  exact hbelow (hp ▸ he)

/-- What stands anywhere else is not changed: what the file lies below are directories already. -/
theorem at?_put_of_ne (habove : tree.DirectoryAbove p) (hne : q ≠ p) :
    (tree.put p content).at? q = tree.at? q := by
  by_cases hbelow : p.isBelow q = true
  · have hold := habove q hbelow
    have hany : ((tree.put p content).entries.any fun e => e.1.isBelow q) = true := by
      rw [put, List.any_cons, hbelow, Bool.true_or]
    rw [hold, at?, lookup_put_of_ne hne, hany]
    rw [at?] at hold
    by_cases hnames : q.names.isEmpty = true
    · rw [if_pos hnames]
    · rw [if_neg hnames] at hold ⊢
      cases hfound : tree.entries.lookup q with
      | none => rfl
      | some node =>
        rw [hfound] at hold
        exact hold
  · rw [at?, at?, lookup_put_of_ne hne, any_isBelow_put hbelow]

/-! ## Written files -/

/-- A tree after a file has been written at a place of another tree: that file stands there, and
everything else is as it was. -/
structure IsWritten (tree : FileTree) (p : Place) (content : Bytes) (after : FileTree) : Prop where
  takesFile : tree.TakesFile p
  self : after.at? p = some (.file content)
  other : ∀ q ≠ p, after.at? q = tree.at? q

theorem isWritten_put (habove : tree.DirectoryAbove p) (htakes : tree.TakesFile p) :
    tree.IsWritten p content (tree.put p content) where
  takesFile := htakes
  self := at?_put_self htakes.names_ne_nil
  other _ hne := at?_put_of_ne habove hne

/-- A file at a place can be read and written through a path: the path leads there, and does not end
in a slash. -/
def IsPathTo (tree : FileTree) (path : Bytes) (p : Place) : Prop :=
  tree.walk path = .ok p ∧ path.getLast? ≠ some slash

/-- A path leads to one place at most. -/
theorem IsPathTo.unique (hp : tree.IsPathTo path p) (hq : tree.IsPathTo path q) : p = q := by
  have heq := hp.1.symm.trans hq.1
  cases heq
  rfl

/-- A file is written if its path is one to a place that can hold it. -/
theorem write?_eq_ok_iff :
    tree.write? path content = .ok after ↔
      ∃ p, tree.IsPathTo path p ∧ tree.TakesFile p ∧ after = tree.put p content := by
  unfold write? IsPathTo TakesFile
  rw [bind_eq_ok]
  refine exists_congr fun p => ?_
  rw [and_assoc]
  refine and_congr_right fun _ => ?_
  split_ifs with hslash
  · simp [hslash]
  · rw [and_iff_right hslash]
    cases tree.at? p with
    | none => simp [eq_comm]
    | some node => cases node <;> simp [eq_comm]

theorem isWritten_of_write? (h : tree.write? path content = .ok after) :
    ∃ p, tree.IsPathTo path p ∧ tree.IsWritten p content after := by
  obtain ⟨p, hpath, htakes, rfl⟩ := write?_eq_ok_iff.mp h
  exact ⟨p, hpath, isWritten_put (directoryAbove_of_walk hpath.1) htakes⟩

namespace IsWritten

/-- The same places are directories. -/
theorem directory_iff (h : tree.IsWritten p content after) :
    after.at? q = some .directory ↔ tree.at? q = some .directory := by
  by_cases hq : q = p
  · subst hq
    rw [h.self]
    exact iff_of_false (by simp) h.takesFile.ne_directory
  · rw [h.other q hq]

theorem enter_iff {name : Bytes} {r : Place} (h : tree.IsWritten p content after) :
    after.enter q name = .ok r ↔ tree.enter q name = .ok r := by
  rw [enter_eq_ok_iff, enter_eq_ok_iff, h.directory_iff]

theorem foldlM_enter_iff {names : List Bytes} {r : Place} (h : tree.IsWritten p content after) :
    names.foldlM after.enter q = .ok r ↔ names.foldlM tree.enter q = .ok r := by
  induction names generalizing q with
  | nil => exact Iff.rfl
  | cons name names ih =>
    rw [List.foldlM_cons, List.foldlM_cons, bind_eq_ok, bind_eq_ok]
    exact exists_congr fun next => and_congr h.enter_iff ih

/-- Every path leads where it led. -/
theorem walk_iff (h : tree.IsWritten p content after) :
    after.walk path = .ok q ↔ tree.walk path = .ok q := by
  unfold walk
  split_ifs
  · exact Iff.rfl
  · exact Iff.rfl
  · exact Iff.rfl
  · exact h.foldlM_enter_iff
  · exact h.foldlM_enter_iff

theorem isPathTo_iff (h : tree.IsWritten p content after) :
    after.IsPathTo path q ↔ tree.IsPathTo path q :=
  and_congr_left' h.walk_iff

end IsWritten

/-! ## What is found at a path -/

/-- Something is found where its path leads; only a directory is found at a path that ends in a
slash. -/
theorem stat_eq_ok_iff {node : FileNode} :
    tree.stat path = .ok node ↔
      ∃ p, tree.walk path = .ok p ∧ tree.at? p = some node ∧
        (node = .directory ∨ path.getLast? ≠ some slash) := by
  unfold stat
  rw [bind_eq_ok]
  refine exists_congr fun p => and_congr_right fun _ => ?_
  cases tree.at? p with
  | none => simp
  | some other => cases other <;> grind

theorem exists_iff : tree.exists_ path = true ↔ ∃ node, tree.stat path = .ok node := by
  unfold exists_
  cases tree.stat path with
  | error e => simp [Except.isOk, Except.toBool]
  | ok node => simp [Except.isOk, Except.toBool]

theorem read?_eq_ok_iff : tree.read? path = .ok content ↔ tree.stat path = .ok (.file content) := by
  unfold read?
  rw [bind_eq_ok]
  constructor
  · rintro ⟨node, hstat, hnode⟩
    cases node with
    | file kept =>
      cases hnode
      exact hstat
    | directory | locked => cases hnode
  · intro hstat
    exact ⟨.file content, hstat, rfl⟩

/-- What stands at a place is found through a path to it. -/
theorem stat_eq_ok_iff_of_isPathTo {node : FileNode} (hpath : tree.IsPathTo path p) :
    tree.stat path = .ok node ↔ tree.at? p = some node := by
  rw [stat_eq_ok_iff]
  constructor
  · rintro ⟨q, hwalk, hat, -⟩
    rw [hpath.unique ⟨hwalk, hpath.2⟩]
    exact hat
  · intro hat
    exact ⟨p, hpath.1, hat, Or.inr hpath.2⟩

theorem exists_iff_of_isPathTo (hpath : tree.IsPathTo path p) :
    tree.exists_ path = true ↔ tree.at? p ≠ none := by
  rw [exists_iff, Option.ne_none_iff_exists']
  exact exists_congr fun node => stat_eq_ok_iff_of_isPathTo hpath

/-- Through any other path the same is found. -/
theorem IsWritten.stat_iff {node : FileNode} (h : tree.IsWritten p content after)
    (hpath : ¬ tree.IsPathTo path p) :
    after.stat path = .ok node ↔ tree.stat path = .ok node := by
  rw [stat_eq_ok_iff, stat_eq_ok_iff]
  refine exists_congr fun q => ?_
  rw [h.walk_iff]
  refine and_congr_right fun hwalk => ?_
  by_cases hq : q = p
  · -- The path ends in a slash: only a directory could be found, and there is none.
    subst hq
    have hslash : ¬ path.getLast? ≠ some slash := fun hslash => hpath ⟨hwalk, hslash⟩
    simp only [or_iff_left hslash]
    constructor
    · rintro ⟨hat, rfl⟩
      exact ⟨h.directory_iff.mp hat, rfl⟩
    · rintro ⟨hat, rfl⟩
      exact ⟨h.directory_iff.mpr hat, rfl⟩
  · rw [h.other q hq]

end FileTree
end LiveQuery
