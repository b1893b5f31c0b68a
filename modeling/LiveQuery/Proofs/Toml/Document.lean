import LiveQuery.Proofs.Toml.Line
import LiveQuery.Toml.Decode
import Mathlib.Data.List.Forall2

/-!
# Documents of sections read back

A `Passage` is a section whose values have no values inside them, apart from where it stands. Lines
that say passages one after the other are gathered into sections that say the same
(`exists_readDocument`), and the tables that these make have the values of the passages, in their
order, if no name comes twice (`Entries.exists_addSection`). Decoders take them out one by one
(`Node.record_cons`).
-/

namespace LiveQuery.Toml

/-- A section, apart from where it stands. -/
structure Passage where
  way : List String
  name : String
  values : List (String × Scalar)

namespace Passage

/-- What the lines of a passage say. -/
def contents (p : Passage) : List Content :=
  .header p.way p.name :: p.values.map fun v => .assignment v.1 v.2

end Passage

/-- An assignment gives a value to a name. -/
inductive Assignment.Says : Assignment → String × Scalar → Prop
  | mk {place : Nat} {key : Key} {value : Scalar} {span : Span} :
    Says ⟨place, [], key, .scalar value span⟩ (key.name, value)

/-- A section says what a passage says. -/
structure Section.Says (s : Section) (p : Passage) : Prop where
  way : s.header.way.map Key.name = p.way
  name : s.header.key.name = p.name
  repeated : s.header.repeated = false
  assignments : List.Forall₂ Assignment.Says s.assignments p.values

/-- An entry is a value at a name. -/
inductive Entry.Says : Key × Node → String × Scalar → Prop
  | mk {name : String} {place : Span} {value : Scalar} {span : Span} :
    Says (⟨name, place⟩, .scalar value span) (name, value)

/-! ## Gathering lines -/

/-- What lines say in front of the first header, and the passages. -/
def Content.gather : List Content → List (String × Scalar) × List Passage
  | [] => ([], [])
  | .empty :: rest => gather rest
  | .assignment name value :: rest => ((name, value) :: (gather rest).1, (gather rest).2)
  | .header way name :: rest => ([], ⟨way, name, (gather rest).1⟩ :: (gather rest).2)

theorem says_gather {lines : List Line} {cs : List Content} (h : List.Forall₂ Line.Says lines cs) :
    List.Forall₂ Assignment.Says (gather lines).1 (Content.gather cs).1 ∧
      List.Forall₂ Section.Says (gather lines).2 (Content.gather cs).2 := by
  induction h with
  | nil => exact ⟨.nil, .nil⟩
  | cons hline _ ih =>
    cases hline with
    | empty => exact ih
    | assignment => exact ⟨.cons .mk ih.1, ih.2⟩
    | header => exact ⟨.nil, .cons ⟨rfl, rfl, rfl, ih.1⟩ ih.2⟩

theorem gather_values (values : List (String × Scalar)) (rest : List Content) :
    Content.gather (values.map (fun v => .assignment v.1 v.2) ++ rest) =
      (values ++ (Content.gather rest).1, (Content.gather rest).2) := by
  induction values with
  | nil => rfl
  | cons v values ih => simp [Content.gather, ih]

theorem gather_contents (p : Passage) {rest : List Content} {ps : List Passage}
    (h : Content.gather rest = ([], ps)) : Content.gather (p.contents ++ rest) = ([], p :: ps) := by
  rw [Passage.contents, List.cons_append, Content.gather, gather_values, h, List.append_nil]

/-- Passages with empty lines between them are gathered as they are. -/
theorem gather_passages (ps : List Passage) :
    Content.gather ([Content.empty].intercalate (ps.map Passage.contents)) = ([], ps) := by
  induction ps with
  | nil => rfl
  | cons p ps ih =>
    cases ps with
    | nil =>
      rw [List.map_singleton, List.intercalate_singleton, ← List.append_nil p.contents]
      exact gather_contents p rfl
    | cons p' ps =>
      rw [List.map_cons, List.map_cons, List.intercalate_cons_cons, ← List.map_cons,
        List.append_assoc]
      exact gather_contents p ih

/-! ## Remarks -/

/-- Lines say contents, and remarks stand between them. -/
inductive SayAmongRemarks : List String → List Content → Prop
  | nil : SayAmongRemarks [] []
  | remark {line : List Char} {lines : List String} {cs : List Content}
    (hline : isRemark line = true) (hlines : SayAmongRemarks lines cs) :
    SayAmongRemarks (String.ofList line :: lines) cs
  | line {line : String} {lines : List String} {c : Content} {cs : List Content}
    (hline : Reads (line.toList ++ ['\n']) c) (hlines : SayAmongRemarks lines cs) :
    SayAmongRemarks (line :: lines) (c :: cs)

theorem gather_cons (c : Content) {cs others : List Content}
    (h : Content.gather cs = Content.gather others) :
    Content.gather (c :: cs) = Content.gather (c :: others) := by
  cases c <;> simp only [Content.gather, h]

/-- Remarks add nothing to what the lines say. -/
theorem SayAmongRemarks.exists_contents {lines : List String} {cs : List Content}
    (h : SayAmongRemarks lines cs) :
    ∃ all, List.Forall₂ Reads (lines.map fun line => line.toList ++ ['\n']) all ∧
      Content.gather all = Content.gather cs := by
  induction h with
  | nil => exact ⟨[], .nil, rfl⟩
  | @remark line _ _ hline _ ih =>
    obtain ⟨all, hall, hgather⟩ := ih
    have hreads : Reads ((String.ofList line).toList ++ ['\n']) .empty := by
      rw [String.toList_ofList]
      exact reads_remark hline
    exact ⟨.empty :: all, .cons hreads hall, hgather⟩
  | line hline _ ih =>
    obtain ⟨all, hall, hgather⟩ := ih
    exact ⟨_ :: all, .cons hline hall, gather_cons _ hgather⟩

/-! ## Texts of passages -/

/-- A text is made of lines that say a passage. -/
def Passage.Written (text : List Char) (p : Passage) : Prop :=
  ∃ lines, text = lines.flatten ∧ List.Forall₂ Reads lines p.contents

/-- Texts of passages with line breaks between them are made of lines that say the passages. -/
theorem exists_lines_intercalate {texts : List (List Char)} {ps : List Passage}
    (h : List.Forall₂ Passage.Written texts ps) :
    ∃ lines, ['\n'].intercalate texts = lines.flatten ∧
      List.Forall₂ Reads lines ([Content.empty].intercalate (ps.map Passage.contents)) := by
  induction h with
  | nil => exact ⟨[], rfl, .nil⟩
  | @cons text p texts ps htext hall ih =>
    obtain ⟨lines, rfl, hlines⟩ := htext
    obtain ⟨more, hmore, hreads⟩ := ih
    cases hall with
    | nil =>
      refine ⟨lines, List.intercalate_singleton, ?_⟩
      rwa [List.map_singleton, List.intercalate_singleton]
    | cons =>
      refine ⟨lines ++ ['\n'] :: more, ?_, ?_⟩
      · rw [List.intercalate_cons_cons, hmore]
        simp
      · rw [List.map_cons, List.map_cons, List.intercalate_cons_cons, List.append_assoc]
        exact List.rel_append hlines (.cons reads_break hreads)

/-- A document of lines that say passages is read as sections that say them. -/
theorem exists_readDocument_flatten {lines : List (List Char)} {cs : List Content}
    {ps : List Passage} (h : List.Forall₂ Reads lines cs) (hgather : Content.gather cs = ([], ps))
    (hmark : skipMark lines.flatten = lines.flatten) :
    ∃ sections, readDocument lines.flatten = Entries.ofSections [] sections ∧
      List.Forall₂ Section.Says sections ps := by
  obtain ⟨read, hread, hsays⟩ := readLines_flatten h (Nat.le_refl _)
  have hsections := says_gather hsays
  rw [hgather] at hsections
  have hfront : (gather read).1 = [] := List.forall₂_nil_right_iff.mp hsections.1
  refine ⟨(gather read).2, ?_, hsections.2⟩
  simp only [readDocument, hmark]
  rw [hread, ok_bind, hfront]

/-- A document of passages is read as sections that say them. -/
theorem exists_readDocument {texts : List (List Char)} {ps : List Passage}
    (h : List.Forall₂ Passage.Written texts ps)
    (hmark : skipMark (['\n'].intercalate texts) = ['\n'].intercalate texts) :
    ∃ sections, readDocument (['\n'].intercalate texts) = Entries.ofSections [] sections ∧
      List.Forall₂ Section.Says sections ps := by
  obtain ⟨lines, htext, hreads⟩ := exists_lines_intercalate h
  rw [htext] at hmark ⊢
  exact exists_readDocument_flatten hreads (gather_passages ps) hmark

/-! ## Putting tables together -/

namespace Entries

theorem find?_eq_none {es : Entries} {name : String} (h : name ∉ es.map fun e => e.1.name) :
    es.find? name = none := by
  rw [find?, Option.map_eq_none_iff, List.find?_eq_none]
  intro e he
  have hne : e.1.name ≠ name := fun heq => h (heq ▸ List.mem_map_of_mem he)
  simpa using hne

theorem names_of_forall₂ {es : Entries} {values : List (String × Scalar)}
    (h : List.Forall₂ Entry.Says es values) : (es.map fun e => e.1.name) = values.map Prod.fst := by
  induction h with
  | nil => rfl
  | cons he _ ih =>
    cases he
    rw [List.map_cons, List.map_cons, ih]

/-- Assignments of values to names, none of which comes twice, are entries one after the other. -/
theorem exists_assignAll {as : List Assignment} {values : List (String × Scalar)}
    (h : List.Forall₂ Assignment.Says as values) (es : Entries)
    (hnodup : ((es.map fun e => e.1.name) ++ values.map Prod.fst).Nodup) :
    ∃ more, assignAll as es = .ok (es ++ more) ∧ List.Forall₂ Entry.Says more values := by
  induction h generalizing es with
  | nil => exact ⟨[], by rw [List.append_nil]; rfl, .nil⟩
  | @cons a v as values ha _ ih =>
    cases ha with
    | @mk place key value span =>
      -- No name comes twice, so the assignment finds its own free.
      have hnew : key.name ∉ es.map fun e => e.1.name := by
        rw [List.map_cons, List.nodup_append] at hnodup
        exact fun hmem => hnodup.2.2 _ hmem _ (List.mem_cons_self ..) rfl
      have hassign : es.assign place key (.scalar value span) [] =
          .ok (es ++ [(key, .scalar value span)]) := by
        simp only [assign, add, find?_eq_none hnew]
      obtain ⟨more, hmore, hall⟩ := ih (es ++ [(key, .scalar value span)])
        (by simpa using hnodup)
      refine ⟨(key, .scalar value span) :: more, ?_, .cons .mk hall⟩
      rw [assignAll, List.foldlM_cons, hassign, ok_bind]
      have happend : es ++ [(key, .scalar value span)] ++ more =
          es ++ (key, .scalar value span) :: more := by simp
      exact happend ▸ hmore

theorem find?_append_last {es : Entries} (key : Key) (h : key.name ∉ es.map fun e => e.1.name)
    (v : Node) : (es ++ [(key, v)]).find? key.name = some v := by
  have hnone : List.find? (fun e => e.1.name = key.name) es = none := by
    simpa [find?] using find?_eq_none h
  simp [find?, List.find?_append, hnone]

theorem replace_append_last {es : Entries} (key : Key)
    (h : key.name ∉ es.map fun e => e.1.name) (v w : Node) :
    (es ++ [(key, v)]).replace key.name w = es ++ [(key, w)] := by
  have hsame : (es.map fun e => if e.1.name = key.name then (e.1, w) else e) = es := by
    have hid : ∀ e ∈ es, (if e.1.name = key.name then (e.1, w) else e) = e := fun e he =>
      if_neg fun heq : e.1.name = key.name => h (heq ▸ List.mem_map_of_mem he)
    rw [List.map_congr_left hid, List.map_id']
  simp [replace, hsame]

/-- A section without a way adds a table of its values. -/
theorem exists_addSection {s : Section} {name : String} {values : List (String × Scalar)}
    (h : s.Says ⟨[], name, values⟩) (hvalues : (values.map Prod.fst).Nodup) (es : Entries)
    (hnew : name ∉ es.map fun e => e.1.name) :
    ∃ place inner span,
      es.addSection s = .ok (es ++ [(⟨name, place⟩, .table .header inner (some span))]) ∧
        List.Forall₂ Entry.Says inner values := by
  obtain ⟨hkeys, rfl, hrepeated, hassignments⟩ := h
  have hempty : s.header.way = [] := List.map_eq_nil_iff.mp hkeys
  obtain ⟨inner, hinner, hall⟩ := exists_assignAll hassignments [] (by simpa using hvalues)
  refine ⟨s.header.key.span, inner, s.span, ?_, hall⟩
  simp only [addSection, hempty, hrepeated, Bool.false_eq_true, if_false, descend, addTable,
    find?_eq_none hnew, hinner, ok_bind]
  rfl

/-- A section whose way is the last table adds to it. -/
theorem exists_addSection_below {s : Section} {way name : String} {values : List (String × Scalar)}
    (h : s.Says ⟨[way], name, values⟩) (hvalues : (values.map Prod.fst).Nodup)
    (es inner : Entries) (place : Span) (span : Option Span)
    (hway : way ∉ es.map fun e => e.1.name) (hnew : name ∉ inner.map fun e => e.1.name) :
    ∃ place' below span',
      addSection (es ++ [(⟨way, place⟩, .table .header inner span)]) s =
        .ok (es ++ [(⟨way, place⟩,
          .table .header (inner ++ [(⟨name, place'⟩, .table .header below (some span'))]) span)]) ∧
        List.Forall₂ Entry.Says below values := by
  obtain ⟨hkeys, rfl, hrepeated, hassignments⟩ := h
  obtain ⟨k, hk, rfl⟩ := List.map_eq_singleton_iff.mp hkeys
  obtain ⟨below, hbelow, hall⟩ := exists_assignAll hassignments [] (by simpa using hvalues)
  refine ⟨s.header.key.span, below, s.span, ?_, hall⟩
  have hheader (place : Nat) : require (decide (Origin.header ≠ .inline)) place = .ok () := rfl
  simp only [addSection, hk, hrepeated, Bool.false_eq_true, if_false, descend,
    find?_append_last ⟨k.name, place⟩ hway, hheader, addTable, find?_eq_none hnew, hbelow, ok_bind]
  rw [pure_bind, replace_append_last ⟨k.name, place⟩ hway]
  rfl

end Entries

/-! ## Taking values out of tables -/

namespace Node

/-- Nothing changes a record where a table has no entries. -/
theorem record_nil {σ : Type} (name : String)
    (fields : List (String × (Span → Node → σ → Except Error σ))) (start : σ) (near : Span)
    (origin : Origin) (span : Option Span) :
    record name fields start near (.table origin [] span) = .ok start := rfl

/-- A record takes the first entry of a table, and then the others. -/
theorem record_cons {σ : Type} {name : String}
    {fields : List (String × (Span → Node → σ → Except Error σ))} {start next : σ}
    {near : Span} {origin : Origin} {span : Option Span} {key : Key} {v : Node} {es : Entries}
    {field : Span → Node → σ → Except Error σ} (hfield : fields.lookup key.name = some field)
    (h : field (v.spanOr key.span) v start = .ok next) :
    record name fields start near (.table origin ((key, v) :: es) span) =
      record name fields next near (.table origin es span) := by
  simp only [record, Node.entries?, List.map_cons, List.foldlM_cons, hfield, h, ok_bind]

theorem natural_integer (near span : Span) (n : Nat) :
    natural near (.scalar (.integer n) span) = .ok n := by
  rw [natural, if_pos (Int.natCast_nonneg n), Int.toNat_natCast]

theorem strings_of_entries {texts : List (String × String)} {es : Entries}
    (h : List.Forall₂ Entry.Says es (texts.map fun l => (l.1, .string l.2))) (near : Span)
    (origin : Origin) (span : Option Span) :
    strings near (.table origin es span) = .ok texts := by
  induction texts generalizing es with
  | nil =>
    cases h
    rfl
  | cons l texts ih =>
    obtain - | ⟨⟨⟩, hrest⟩ := h
    have hmap := ih hrest
    simp only [strings, entries?] at hmap ⊢
    rw [List.map_cons, List.mapM_cons, hmap]
    rfl

end Node
end LiveQuery.Toml
