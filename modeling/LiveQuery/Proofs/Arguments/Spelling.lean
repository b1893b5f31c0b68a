import Mathlib.Data.List.Nodup
import LiveQuery.Proofs.Arguments.Reading
import LiveQuery.Proofs.Text.Integer

/-!
# Words behind the name of a command

A word of a query or a watch sets one item: the endpoint is spelled by its name, an option as
`--name=value`, the switch as its name. Words that set different items set what they say, in whatever
order they are read (`read_words`, `foldl_set_perm`).
-/

namespace LiveQuery.Arguments

/-- One word behind the name of the command. -/
inductive Word where
  | endpoint (name : EndpointName)
  | json
  | body (text : String)
  | limit (n : UInt32)
  | offset (n : UInt32)
  | config (path : String)
  | apiUrl (url : String)
  | logLevel (level : String)
  | intervalMs (n : UInt64)
  | count (n : UInt64)
  deriving DecidableEq, Repr

namespace Word

/-- An option with its value. -/
def valued (name value : String) : String := "--" ++ (name ++ "=" ++ value)

/-- How a word is typed. -/
def text : Word → String
  | endpoint name => name.text
  | json => "--json"
  | body text => valued "body" text
  | limit n => valued "limit" (toString n.toNat)
  | offset n => valued "offset" (toString n.toNat)
  | config path => valued "config" path
  | apiUrl url => valued "api-url" url
  | logLevel level => valued "log-level" level
  | intervalMs n => valued "interval-ms" (toString n.toNat)
  | count n => valued "count" (toString n.toNat)

/-- What a word sets. -/
def item : Word → Item
  | endpoint _ => .endpoint
  | json => .json
  | body _ => .body
  | limit _ => .limit
  | offset _ => .offset
  | config _ => .config
  | apiUrl _ => .apiUrl
  | logLevel _ => .logLevel
  | intervalMs _ => .intervalMs
  | count _ => .count

/-- A word that sets its item where it is typed. -/
structure Fits (c : Context) (w : Word) : Prop where
  known : w.item ∈ c.items ∨ c.positional? = some w.item
  /-- A path is not empty. -/
  named : w ≠ config ""

end Word

/-- The values with what a word sets. -/
def Given.set (g : Given) : Word → Given
  | .endpoint name => { g with endpoint := some name }
  | .json => { g with json := some () }
  | .body text => { g with body := some text }
  | .limit n => { g with limit := some n }
  | .offset n => { g with offset := some n }
  | .config path => { g with config := some (Bytes.ofString path) }
  | .apiUrl url => { g with apiUrl := some url }
  | .logLevel level => { g with logLevel := some level }
  | .intervalMs n => { g with intervalMs := some n.toNat }
  | .count n => { g with count := some n.toNat }

namespace Word

/-- What a word says about its item. -/
def value : Word → String
  | endpoint name => name.text
  | json => ""
  | body text => text
  | limit n => toString n.toNat
  | offset n => toString n.toNat
  | config path => path
  | apiUrl url => url
  | logLevel level => level
  | intervalMs n => toString n.toNat
  | count n => toString n.toNat

variable {v w : Word}

theorem text_of_long {name : String} (hlong : w.item.long? = some name)
    (htakes : w.item.takesValue = true) : w.text = valued name w.value := by
  cases w with
  | endpoint => cases hlong
  | json => cases htakes
  | body | limit | offset | config | apiUrl | logLevel | intervalMs | count =>
    cases hlong
    rfl

end Word

/-! ## Setting one item after another -/

section Given

variable {g : Given} {v w : Word}

theorem Given.has_nothing (i : Item) : Given.nothing.has i = false := by
  cases i <;> rfl

/-- A word sets its own item only. -/
theorem Given.has_set (h : v.item ≠ w.item) : (g.set v).has w.item = g.has w.item := by
  cases v <;> cases w <;> first | rfl | exact absurd rfl h

/-- Words that set different items can be swapped. -/
theorem Given.set_comm (h : v.item ≠ w.item) : (g.set v).set w = (g.set w).set v := by
  cases v <;> cases w <;> first | rfl | exact absurd rfl h

theorem Given.text_ofString (t : String) : Given.text (Bytes.ofString t) = .ok t := by
  rw [Given.text, Bytes.toString?_ofString]

theorem Given.word_toString (i : Item) (n : UInt32) :
    Given.word i (Bytes.ofString (toString n.toNat)) = .ok n := by
  have hlt : n.toNat < UInt32.size := n.toNat_lt_size
  have hsize : UInt32.size ≤ 0x7FFFFFFFFFFFFFFF := by decide
  have hread := Text.readI64_toString (n := n.toNat) (by omega)
  have hrange : 0 ≤ (n.toNat : Int) ∧ (n.toNat : Int) < UInt32.size := by omega
  rw [Given.word, Given.text_ofString, ok_bind, hread]
  simp only [if_pos hrange, Int.toNat_natCast]
  rw [Nat.toUInt32, UInt32.ofNat_toNat]

theorem Given.number_toString (i : Item) (n : UInt64) :
    Given.number i (Bytes.ofString (toString n.toNat)) = .ok n.toNat := by
  rw [Given.number, Given.text_ofString, ok_bind, Text.readU64_toString n.toNat_lt_size]

theorem Given.path_ofString (i : Item) {path : String} (h : path ≠ "") :
    Given.path i (Bytes.ofString path) = .ok (Bytes.ofString path) := by
  have hne : (Bytes.ofString path).isEmpty = false := by
    obtain ⟨c, cs, hc⟩ := List.exists_cons_of_ne_nil (mt String.toList_eq_nil_iff.mp h)
    obtain ⟨a, tail, ha, -⟩ := Glyph.cut_utf8EncodeChar c []
    rw [Bytes.ofString, hc, List.flatMap_cons, ha]
    rfl
  rw [Given.path, hne]
  rfl

theorem Given.name_text (name : EndpointName) :
    Given.name (Bytes.ofString name.text) = .ok name := by
  have hname : EndpointName.ofText? name.text = some name := by
    cases name <;> rfl
  rw [Given.name, Given.text_ofString, ok_bind, hname]

/-- The value of a word, as it is typed, sets the item of the word to what the word says. -/
theorem Given.accept_value (hset : g.has w.item = false) (hswitch : w ≠ .json)
    (hnamed : w ≠ .config "") :
    g.accept w.item (Bytes.ofString w.value) = .ok (g.set w) := by
  have hfree : ¬ g.has w.item = true := by
    rw [hset]
    decide
  unfold Given.accept
  rw [if_neg hfree]
  cases w with
  | endpoint name => simp only [Word.item, Word.value, name_text, ok_bind]; rfl
  | json => exact absurd rfl hswitch
  | body text => simp only [Word.item, Word.value, text_ofString, ok_bind]; rfl
  | limit n => simp only [Word.item, Word.value, word_toString, ok_bind]; rfl
  | offset n => simp only [Word.item, Word.value, word_toString, ok_bind]; rfl
  | config path =>
    have hne : path ≠ "" := fun he => hnamed (congrArg Word.config he)
    simp only [Word.item, Word.value, path_ofString _ hne, ok_bind]
    rfl
  | apiUrl url => simp only [Word.item, Word.value, text_ofString, ok_bind]; rfl
  | logLevel level => simp only [Word.item, Word.value, text_ofString, ok_bind]; rfl
  | intervalMs n => simp only [Word.item, Word.value, number_toString, ok_bind]; rfl
  | count n => simp only [Word.item, Word.value, number_toString, ok_bind]; rfl

end Given

/-! ## Reading words -/

section Words

variable {c : Context} {s : State} {g : Given} {w : Word}

theorem commands_eq_nil (hc : c ∈ [.query, .watch]) : c.commands = [] := by
  rcases List.mem_pair.mp hc with rfl | rfl <;> rfl

/-- Each named item of a query or a watch is found under its name, and no name holds an equals
sign. -/
theorem ofLong?_item : ∀ c ∈ [Context.query, .watch], ∀ item ∈ c.items, ∀ name ∈ item.long?,
    c.ofLong? name = some item ∧ '=' ∉ name.toList := by
  decide

/-- An option is read. -/
theorem read_option (hc : c ∈ [.query, .watch]) (hw : w.Fits c) (hs : Stands s g)
    (hset : g.has w.item = false) (htakes : w.item.takesValue = true) {name : String}
    (hlong : w.item.long? = some name) (env : Environment) (rest : List (List Glyph)) :
    read env c s (Glyph.ofString w.text :: rest) =
      read env c ⟨g.set w, .nothing, false, (g.set w).endpoint.isSome⟩ rest := by
  have hmem : w.item ∈ c.items := by
    refine hw.known.resolve_right fun hplace => ?_
    rcases List.mem_pair.mp hc with rfl | rfl
    · rw [← Option.some.inj hplace] at hlong
      cases hlong
    · rw [← Option.some.inj hplace] at hlong
      cases hlong
  obtain ⟨hfound, hname⟩ := ofLong?_item c hc w.item hmem name hlong
  have hswitch : w ≠ .json := by
    rintro rfl
    cases htakes
  have hplace : (g.set w).endpoint = g.endpoint := by
    cases w with
    | endpoint => cases hlong
    | _ => rfl
  rw [Word.text_of_long hlong htakes, Word.valued]
  exact read_valued (commands_eq_nil hc) hfound htakes hname hs
    (Given.accept_value hset hswitch hw.named) hplace env rest

/-- A word sets its item, wherever it stands. -/
theorem read_word (hc : c ∈ [.query, .watch]) (hw : w.Fits c) (hs : Stands s g)
    (hset : g.has w.item = false) :
    ∃ s', Stands s' (g.set w) ∧ ∀ env rest,
      read env c s (Glyph.ofString w.text :: rest) = read env c s' rest := by
  cases w with
  | endpoint name =>
    have hnone : g.endpoint = none := Option.not_isSome_iff_eq_none.mp (ne_true_of_eq_false hset)
    have hplace : c.positional? = some .endpoint := by
      rcases List.mem_pair.mp hc with rfl | rfl <;> rfl
    have hform : Form.of (Glyph.ofString name.text) = .word := by
      cases name <;> rfl
    have haccept := Given.accept_value (w := .endpoint name) hset nofun nofun
    exact ⟨_, stands_holding haccept rfl,
      read_placed (commands_eq_nil hc) hplace hform hs hnone⟩
  | json =>
    have hfree : ¬ g.has .json = true := ne_true_of_eq_false hset
    have hflip : g.flip c .json = .ok (g.set .json) := by
      unfold Given.flip
      rw [if_neg hfree]
      rfl
    have hlong : c.ofLong? "json" = some .json := by
      rcases List.mem_pair.mp hc with rfl | rfl <;> rfl
    have hread := read_switch (commands_eq_nil hc) hlong rfl (by decide) (by decide) hs hflip rfl
    exact ⟨_, stands_resolved _, hread⟩
  | body | limit | offset | config | apiUrl | logLevel | intervalMs | count =>
    have hread := read_option hc hw hs hset rfl rfl
    exact ⟨_, stands_resolved _, hread⟩

/-- Words that set different items are read one after the other. -/
theorem read_words (hc : c ∈ [.query, .watch]) {ws : List Word} (hfits : ∀ w ∈ ws, w.Fits c)
    (hnodup : (ws.map Word.item).Nodup) (hs : Stands s g)
    (hset : ∀ w ∈ ws, g.has w.item = false) :
    ∃ s', Stands s' (ws.foldl Given.set g) ∧ ∀ env,
      read env c s (ws.map fun w => Glyph.ofString w.text) = read env c s' [] := by
  induction ws generalizing s g with
  | nil => exact ⟨s, hs, fun _ => rfl⟩
  | cons w ws ih =>
    obtain ⟨hw, hws⟩ := List.forall_mem_cons.mp hfits
    obtain ⟨hgw, hgws⟩ := List.forall_mem_cons.mp hset
    rw [List.map_cons, List.nodup_cons] at hnodup
    obtain ⟨s₁, hs₁, hread⟩ := read_word hc hw hs hgw
    have hset₁ : ∀ v ∈ ws, (g.set w).has v.item = false := by
      intro v hv
      have hne : w.item ≠ v.item := fun he => hnodup.1 (he ▸ List.mem_map_of_mem hv)
      rw [Given.has_set hne]
      exact hgws v hv
    obtain ⟨s₂, hs₂, hrest⟩ := ih hws hnodup.2 hs₁ hset₁
    refine ⟨s₂, hs₂, fun env => ?_⟩
    rw [List.map_cons, hread, hrest]

/-- The command for words that set different items, behind its name. -/
theorem parse_of_nodup {command : String} (hcommand : Context.root.enter? command = some c)
    (hc : c ∈ [.query, .watch]) {ws : List Word} (hfits : ∀ w ∈ ws, w.Fits c)
    (hnodup : (ws.map Word.item).Nodup) (env : Environment) :
    parse env (Bytes.ofString command :: ws.map fun w => Bytes.ofString w.text) =
      ((ws.foldl Given.set .nothing).fromEnvironment env c.items >>= fun given =>
        given.command c) := by
  obtain ⟨s, hs, hread⟩ := read_words hc hfits hnodup stands_start fun w _ => Given.has_nothing _
  have hglyphs : (Bytes.ofString command :: ws.map fun w => Bytes.ofString w.text).map
      Glyph.ofBytes = Glyph.ofString command :: ws.map fun w => Glyph.ofString w.text := by
    simp [Glyph.ofBytes_ofString]
  have henter : (text? (Glyph.ofString command)).bind Context.root.enter? = some c := by
    rw [text?_ofString, Option.bind_some, hcommand]
  rw [parse, hglyphs, read, henter]
  simp only [State.start, Bool.false_eq_true, if_false]
  rw [← State.start, hread, read, hs.finish]

/-- The order of words that set different items does not matter. -/
theorem foldl_set_perm {ws vs : List Word} (h : ws.Perm vs) (hnodup : (ws.map Word.item).Nodup)
    (g : Given) : ws.foldl Given.set g = vs.foldl Given.set g := by
  refine h.foldl_eq' (fun v hv w hw g => ?_) g
  by_cases hvw : v = w
  · rw [hvw]
  · exact Given.set_comm fun he => hvw (List.inj_on_of_nodup_map hnodup hv hw he)

end Words

end LiveQuery.Arguments
