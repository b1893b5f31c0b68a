import Mathlib.Data.List.TakeWhile
import LiveQuery.Arguments.Parser
import LiveQuery.Proofs.Success
import LiveQuery.Proofs.Text.Glyph

/-!
# Reading the arguments of a command, one by one

What an argument does to the reader: a long name with a value attached to it, a switch, and a word
that is told by its place. `Stands s g` says that the reader stands behind arguments that set `g`;
the last value may still be waiting to be looked at, which shows only when the next item comes or the
arguments end.
-/

namespace LiveQuery.Arguments

/-- A text that was typed as an argument is that text again. -/
theorem text?_ofString (t : String) : text? (Glyph.ofString t) = some t := by
  rw [text?, Glyph.mapM_char?_ofString, Option.map_some, String.ofList_toList]

theorem octets_ofString (t : String) : octets (Glyph.ofString t) = Bytes.ofString t := by
  unfold octets Glyph.ofString Bytes.ofString
  rw [List.flatMap_map]
  rfl

theorem ne_equals_of_not_mem {name : String} (hname : '=' ∉ name.toList) :
    ∀ g ∈ Glyph.ofString name, decide (g ≠ .char '=') = true := by
  intro g hg
  obtain ⟨c, hc, rfl⟩ := List.mem_map.mp hg
  rw [decide_eq_true_eq]
  rintro ⟨⟩
  exact hname hc

/-- The first equals sign ends the name, whatever the value holds. -/
theorem splitValue_ofString {name : String} (hname : '=' ∉ name.toList) (value : String) :
    splitValue (Glyph.ofString (name ++ "=" ++ value)) =
      (Glyph.ofString name, some (Glyph.ofString value)) := by
  have hsplit : Glyph.ofString (name ++ "=" ++ value) =
      Glyph.ofString name ++ .char '=' :: Glyph.ofString value := by
    simp [Glyph.ofString]
  have hplain := ne_equals_of_not_mem hname
  rw [hsplit, splitValue, List.dropWhile_append_of_pos hplain, List.takeWhile_append_of_pos hplain]
  simp

theorem splitValue_of_not_mem {name : String} (hname : '=' ∉ name.toList) :
    splitValue (Glyph.ofString name) = (Glyph.ofString name, none) := by
  rw [splitValue, List.dropWhile_eq_nil_iff.mpr (ne_equals_of_not_mem hname)]

/-- Two hyphens and something behind them. -/
theorem Form.of_long {piece : String} (hpiece : piece ≠ "") :
    Form.of (Glyph.ofString ("--" ++ piece)) = .long (Glyph.ofString piece) := by
  have hsplit : Glyph.ofString ("--" ++ piece) =
      .char '-' :: .char '-' :: Glyph.ofString piece := by
    simp [Glyph.ofString]
  have hne : Glyph.ofString piece ≠ [] := by
    simpa [Glyph.ofString] using hpiece
  obtain ⟨g, gs, hg⟩ := List.exists_cons_of_ne_nil hne
  rw [hsplit, hg]
  rfl

/-! ## Where the reader stands -/

/-- The reader is behind arguments that set `g`. -/
structure Stands (s : State) (g : Given) : Prop where
  resolves : s.resolve = .ok ⟨g, .nothing, false, g.endpoint.isSome⟩
  untrailed : s.trailing = false
  placed : s.placed = g.endpoint.isSome

theorem stands_start : Stands .start .nothing := ⟨rfl, rfl, rfl⟩

/-- Nothing waits to be looked at. -/
theorem stands_resolved (g : Given) : Stands ⟨g, .nothing, false, g.endpoint.isSome⟩ g :=
  ⟨rfl, rfl, rfl⟩

/-- A value that is told by its place waits to be looked at. -/
theorem stands_holding {g g' : Given} {value : Bytes} (h : g.accept .endpoint value = .ok g')
    (hset : g'.endpoint.isSome = true) : Stands ⟨g, .holding .endpoint value, false, true⟩ g' := by
  refine ⟨?_, rfl, hset.symm⟩
  simp only [State.resolve, h, ok_bind, hset]
  rfl

variable {c : Context} {s : State} {g g' : Given} {item : Item} {name value : String}

theorem Stands.not_awaiting (hs : Stands s g) (item : Item) : s.pending ≠ .awaiting item := by
  intro hpending
  have hresolve := hs.resolves
  simp only [State.resolve, hpending] at hresolve
  cases hresolve

/-- Once the arguments have ended, what they set is completed from the environment. -/
theorem Stands.finish (hs : Stands s g) (env : Environment) :
    finish env c s = (g.fromEnvironment env c.items >>= fun given => given.command c) := by
  rw [Arguments.finish, hs.resolves]
  rfl

/-- An argument with two hyphens in a context without commands. -/
theorem read_long (hcommands : c.commands = []) (hs : Stands s g) {piece : String}
    (hpiece : piece ≠ "") {s' : State} (hread : readLong c (Glyph.ofString piece) s = .ok s')
    (env : Environment) (rest : List (List Glyph)) :
    read env c s (Glyph.ofString ("--" ++ piece) :: rest) = read env c s' rest := by
  have henter : (text? (Glyph.ofString ("--" ++ piece))).bind c.enter? = none := by
    rw [text?_ofString, Option.bind_some, Context.enter?, hcommands]
    rfl
  simp only [read, hs.untrailed, Bool.false_eq_true, if_false, henter, Form.of_long hpiece, hread,
    ok_bind]

/-- A long name with a value attached to it sets its item. -/
theorem read_valued (hcommands : c.commands = []) (hlong : c.ofLong? name = some item)
    (htakes : item.takesValue = true) (hname : '=' ∉ name.toList) (hs : Stands s g)
    (haccept : g.accept item (Bytes.ofString value) = .ok g') (hplace : g'.endpoint = g.endpoint)
    (env : Environment) (rest : List (List Glyph)) :
    read env c s (Glyph.ofString ("--" ++ (name ++ "=" ++ value)) :: rest) =
      read env c ⟨g', .nothing, false, g'.endpoint.isSome⟩ rest := by
  have hpiece : name ++ "=" ++ value ≠ "" := by
    intro hempty
    have hlist := congrArg String.toList hempty
    simp at hlist
  refine read_long hcommands hs hpiece ?_ env rest
  have hattach : s.attach item (Bytes.ofString value) =
      .ok ⟨g', .nothing, false, g'.endpoint.isSome⟩ := by
    rw [State.attach, hs.resolves, ok_bind, haccept, hplace]
    rfl
  simp only [readLong, splitValue_ofString hname, text?_ofString, Option.bind_some, hlong, htakes,
    if_true, octets_ofString, hattach]

/-- A long name without a value flips its switch. -/
theorem read_switch (hcommands : c.commands = []) (hlong : c.ofLong? name = some item)
    (htakes : item.takesValue = false) (hname : '=' ∉ name.toList) (hne : name ≠ "")
    (hs : Stands s g) (hflip : g.flip c item = .ok g') (hplace : g'.endpoint = g.endpoint)
    (env : Environment) (rest : List (List Glyph)) :
    read env c s (Glyph.ofString ("--" ++ name) :: rest) =
      read env c ⟨g', .nothing, false, g'.endpoint.isSome⟩ rest := by
  refine read_long hcommands hs hne ?_ env rest
  have hswitch : s.flip c item = .ok ⟨g', .nothing, false, g'.endpoint.isSome⟩ := by
    rw [State.flip, hs.resolves, ok_bind, hflip, hplace]
    rfl
  simp only [readLong, splitValue_of_not_mem hname, text?_ofString, Option.bind_some, hlong, htakes,
    Bool.false_eq_true, if_false, hswitch]

/-- A word that is told by its place is kept for when it is looked at. -/
theorem read_placed (hcommands : c.commands = []) (hplace : c.positional? = some item)
    (hform : Form.of (Glyph.ofString value) = .word) (hs : Stands s g) (hnone : g.endpoint = none)
    (env : Environment) (rest : List (List Glyph)) :
    read env c s (Glyph.ofString value :: rest) =
      read env c ⟨g, .holding item (Bytes.ofString value), false, true⟩ rest := by
  have henter : (text? (Glyph.ofString value)).bind c.enter? = none := by
    rw [text?_ofString, Option.bind_some, Context.enter?, hcommands]
    rfl
  have hplaced : s.placed = false := by
    rw [hs.placed, hnone]
    rfl
  have hread : readPlaced c (Glyph.ofString value) s =
      .ok ⟨g, .holding item (Bytes.ofString value), false, true⟩ := by
    simp only [readPlaced, hplace, hplaced, hs.resolves, ok_bind, octets_ofString]
    rfl
  have hpending := hs.not_awaiting
  have hcommand : ¬ ((!([] : List (String × Context)).isEmpty) = true ∧
      text? (Glyph.ofString value) = some helpCommand) := fun h => absurd h.1 (by decide)
  rw [read, hs.untrailed, henter, hform]
  cases hcase : s.pending with
  | awaiting item' => exact absurd hcase (hpending item')
  | nothing | holding =>
    simp only [Bool.false_eq_true, if_false, hcommands, hcommand, hread, ok_bind]

end LiveQuery.Arguments
