import LiveQuery.Proofs.Json.Members
import LiveQuery.Proofs.Json.Spelling
import LiveQuery.Proofs.Text.Glyph
import LiveQuery.Response

/-!
# What is printed, read again

Both printers write spellings of the value that they print (`spells_compactChars`,
`spells_prettyChars`), and so a reader comes to the value again, as long as its numbers are integers
that fit and its brackets do not go down too far. Where the members of an object are out of order, or
repeat keys, the reader puts them in order (`settled`, `parse_compact`). A response that is printed
and sent back is the same response (`Response.ofReply_render`).
-/

namespace LiveQuery

namespace Json

/-- A value whose numbers are integers that the reader keeps as integers. -/
inductive Integral : Json → Prop
  | null : Integral .null
  | bool (b : Bool) : Integral (.bool b)
  | number {i : Int} (hi : Number.least ≤ i ∧ i ≤ Number.largest) : Integral (.number (.int i))
  | string (s : String) : Integral (.string s)
  | array {items : List Json} (h : ∀ v ∈ items, Integral v) : Integral (.array items)
  | object {ms : Members} (h : ∀ m ∈ ms, Integral m.2) : Integral (.object ms)

theorem Integral.nat {n : Nat} (hn : n ≤ 0xFFFFFFFFFFFFFFFF) : Integral (nat n) := by
  apply Integral.number
  unfold Number.least Number.largest
  omega

theorem Integral.single {name : String} {x : Json} (hx : Integral x) :
    Integral (.object [(name, x)]) :=
  .object fun _ hm => List.mem_singleton.mp hm ▸ hx

mutual
/-- How many levels of brackets a value has. -/
def nesting : Json → Nat
  | array items => itemsNesting items + 1
  | object members => membersNesting members + 1
  | _ => 0

/-- The most levels of brackets that an item has. -/
def itemsNesting : List Json → Nat
  | [] => 0
  | v :: rest => max (nesting v) (itemsNesting rest)

/-- The most levels of brackets that the value of a member has. -/
def membersNesting : List (String × Json) → Nat
  | [] => 0
  | (_, v) :: rest => max (nesting v) (membersNesting rest)
end

theorem nesting_le_itemsNesting {items : List Json} {v : Json} (h : v ∈ items) :
    v.nesting ≤ itemsNesting items := by
  induction items with
  | nil => cases h
  | cons w rest ih =>
    rw [itemsNesting]
    rcases List.mem_cons.mp h with rfl | h
    · exact Nat.le_max_left ..
    · exact Nat.le_trans (ih h) (Nat.le_max_right ..)

theorem nesting_le_membersNesting {members : List (String × Json)} {m : String × Json}
    (h : m ∈ members) : m.2.nesting ≤ membersNesting members := by
  induction members with
  | nil => cases h
  | cons w rest ih =>
    rw [membersNesting]
    rcases List.mem_cons.mp h with rfl | h
    · exact Nat.le_max_left ..
    · exact Nat.le_trans (ih h) (Nat.le_max_right ..)

theorem membersNesting_le {members : List (String × Json)} {n : Nat}
    (h : ∀ m ∈ members, m.2.nesting ≤ n) : membersNesting members ≤ n := by
  induction members with
  | nil => exact Nat.zero_le n
  | cons m rest ih =>
    obtain ⟨hm, hrest⟩ := List.forall_mem_cons.mp h
    exact Nat.max_le.mpr ⟨hm, ih hrest⟩

mutual
/-- The value that a reader comes to from a text with the members in this order: they are sorted by
key, and of two with one key the later one counts. -/
def settled : Json → Json
  | array items => array (settledItems items)
  | object members => obj (settledMembers members)
  | v => v

/-- The items that a reader comes to. -/
def settledItems : List Json → List Json
  | [] => []
  | v :: rest => settled v :: settledItems rest

/-- The members that a reader comes by, each with its value. -/
def settledMembers : List (String × Json) → List (String × Json)
  | [] => []
  | (k, v) :: rest => (k, settled v) :: settledMembers rest
end

theorem settledItems_eq (items : List Json) : settledItems items = items.map settled := by
  induction items with
  | nil => rfl
  | cons v rest ih => rw [settledItems, ih, List.map_cons]

theorem settledMembers_eq (members : List (String × Json)) :
    settledMembers members = members.map fun m => (m.1, m.2.settled) := by
  induction members with
  | nil => rfl
  | cons m rest ih => rw [settledMembers, ih, List.map_cons]

/-- Values that are settled already. -/
theorem settledMembers_of_forall {members : List (String × Json)}
    (h : ∀ m ∈ members, m.2.settled = m.2) : settledMembers members = members := by
  rw [settledMembers_eq]
  refine (List.map_congr_left fun m hm => ?_).trans (List.map_id members)
  rw [h m hm]
  rfl

theorem Canonical.settled_eq {v : Json} (h : Canonical v) : v.settled = v := by
  induction h with
  | null => rfl
  | bool b => rfl
  | number n => rfl
  | string s => rfl
  | @array items _ ih =>
    rw [settled, settledItems_eq]
    exact congrArg Json.array ((List.map_congr_left ih).trans (List.map_id items))
  | object hsorted _ ih =>
    rw [settled, settledMembers_of_forall ih, obj, ofMembers_of_sorted hsorted]

/-! ## Lists as they are printed -/

theorem compactItems_eq : ∀ items : List Json,
    compactItems items = listed [] (items.map compactChars)
  | [] => rfl
  | [_] => rfl
  | v :: w :: rest => by
    rw [compactItems, compactItems_eq (w :: rest)]
    rfl

theorem compactMembers_eq : ∀ members : List (String × Json),
    compactMembers members = listed [] (members.map fun m => memberText [] m.1 (compactChars m.2))
  | [] => rfl
  | [_] => rfl
  | m :: m' :: rest => by
    rw [compactMembers, compactMembers_eq (m' :: rest)]
    rfl

theorem prettyItems_eq (level : Nat) : ∀ items : List Json,
    prettyItems level items = listed (newline level) (items.map (prettyChars level))
  | [] => rfl
  | [_] => rfl
  | v :: w :: rest => by
    rw [prettyItems, prettyItems_eq level (w :: rest)]
    rfl

theorem prettyMembers_eq (level : Nat) : ∀ members : List (String × Json),
    prettyMembers level members =
      listed (newline level) (members.map fun m => memberText [' '] m.1 (prettyChars level m.2))
  | [] => rfl
  | [m] => List.append_assoc ..
  | m :: m' :: rest => by
    rw [prettyMembers, prettyMembers_eq level (m' :: rest)]
    simp [listed, memberText]

theorem blank_newline (level : Nat) : Blank (newline level) := by
  intro c hc
  rcases List.mem_cons.mp hc with rfl | hc
  · decide
  · rw [List.eq_of_mem_replicate hc]
    decide

theorem blank_space : Blank [' '] := by
  intro c hc
  rw [List.mem_singleton.mp hc]
  decide

/-! ## Printers write spellings -/

section Printers

variable {v : Json} {n : Nat}

/-- An array is spelled if its items are, each with the levels that it needs. -/
theorem spells_array {items : List Json} {text : Json → List Char} {before after : List Char}
    (hbefore : Blank before) (hafter : Blank after) (hn : (array items).nesting ≤ n)
    (hitems : ∀ v ∈ items, ∀ n, v.nesting ≤ n → Spells n (text v) v.settled) :
    Spells n ('[' :: (listed before (items.map text) ++ after ++ [']'])) (array items).settled := by
  rw [nesting] at hn
  obtain ⟨n, rfl⟩ : ∃ k, n = k + 1 := ⟨n - 1, by omega⟩
  rw [settled, settledItems_eq]
  refine .array hbefore hafter fun v hv => hitems v hv n ?_
  have hle := nesting_le_itemsNesting hv
  omega

/-- An object is spelled if the values of its members are. -/
theorem spells_object {members : Members} {text : Json → List Char}
    {before gap after : List Char} (hbefore : Blank before) (hgap : Blank gap)
    (hafter : Blank after) (hn : (object members).nesting ≤ n)
    (hmembers : ∀ m ∈ members, ∀ n, m.2.nesting ≤ n → Spells n (text m.2) m.2.settled) :
    Spells n
      ('\x7b' :: (listed before (members.map fun m => memberText gap m.1 (text m.2)) ++ after ++
        ['\x7d'])) (object members).settled := by
  rw [nesting] at hn
  obtain ⟨n, rfl⟩ : ∃ k, n = k + 1 := ⟨n - 1, by omega⟩
  rw [settled, settledMembers_eq]
  refine .object hbefore hgap hafter fun m hm => hmembers m hm n ?_
  have hle := nesting_le_membersNesting hm
  omega

/-- The text on one line spells what is settled of the value. -/
theorem spells_compactChars_settled (hi : Integral v) (hn : v.nesting ≤ n) :
    Spells n v.compactChars v.settled := by
  induction hi generalizing n with
  | null => exact .null n
  | bool b =>
    cases b with
    | true => exact .truth n
    | false => exact .falsity n
  | number hi => exact .number n hi
  | string s => exact .string n s
  | array _ ih =>
    have hspells := spells_array blank_nil blank_nil hn fun v hv n hn => ih v hv hn
    rw [List.append_nil, ← compactItems_eq] at hspells
    exact hspells
  | object _ ih =>
    have hspells := spells_object blank_nil blank_nil blank_nil hn fun m hm n hn => ih m hm hn
    rw [List.append_nil, ← compactMembers_eq] at hspells
    exact hspells

/-- The text with one item a line spells what is settled of the value, on whatever level it
stands. -/
theorem spells_prettyChars_settled (hi : Integral v) (hn : v.nesting ≤ n) (level : Nat) :
    Spells n (v.prettyChars level) v.settled := by
  induction hi generalizing n level with
  -- A value without items stays on its line.
  | null => exact spells_compactChars_settled .null hn
  | bool b => exact spells_compactChars_settled (.bool b) hn
  | number hi => exact spells_compactChars_settled (.number hi) hn
  | string s => exact spells_compactChars_settled (.string s) hn
  | @array items hitems ih =>
    cases items with
    | nil => exact spells_compactChars_settled (.array hitems) hn
    | cons v rest =>
      have hspells := spells_array (blank_newline (level + 1)) (blank_newline level) hn
        fun v hv n hn => ih v hv hn (level + 1)
      rw [← prettyItems_eq] at hspells
      exact hspells
  | @object ms hmembers ih =>
    cases ms with
    | nil => exact spells_compactChars_settled (.object hmembers) hn
    | cons m rest =>
      have hspells := spells_object (blank_newline (level + 1)) blank_space
        (blank_newline level) hn fun m hm n hn => ih m hm hn (level + 1)
      rw [← prettyMembers_eq] at hspells
      exact hspells

/-- The text on one line spells the value, if its members are sorted. -/
theorem spells_compactChars (hv : Canonical v) (hi : Integral v) (hn : v.nesting ≤ n) :
    Spells n v.compactChars v := by
  have hspells := spells_compactChars_settled hi hn
  rwa [hv.settled_eq] at hspells

/-- The text with one item a line spells the value, if its members are sorted. -/
theorem spells_prettyChars (hv : Canonical v) (hi : Integral v) (hn : v.nesting ≤ n)
    (level : Nat) : Spells n (v.prettyChars level) v := by
  have hspells := spells_prettyChars_settled hi hn level
  rwa [hv.settled_eq] at hspells

end Printers

/-! ## Whole texts -/

/-- A whole text that spells a value, with no more levels than the reader goes down, is read as this
value. -/
theorem ofGlyphs?_of_spells {n : Nat} {cs : List Char} {v : Json} (h : Spells n cs v)
    (hn : n < depthLimit) : ofGlyphs? (cs.map .char) = .ok v := by
  have hfuel : 2 * cs.length ≤ 2 * (cs.map Glyph.char).length + 2 := by
    rw [List.length_map]
    omega
  obtain ⟨doc, q, hread, hvalue⟩ := h.reads [] blank_nil [] ends_nil .start _ hfuel
  rw [List.append_nil] at hread
  have hlayout : Doc.ofGlyphs (cs.map .char) = (doc, some ⟨[], q⟩) := hread
  unfold ofGlyphs? Doc.decodeAll
  rw [hlayout]
  show (doc.value depthLimit >>= _) = _
  rw [hvalue depthLimit hn]
  rfl

/-- What is written on one line is read as what is settled of the value. -/
theorem parse_compact {v : Json} (hi : Integral v) (hn : v.nesting ≤ 127) :
    parse v.compact = .ok v.settled := by
  have hread := ofGlyphs?_of_spells (spells_compactChars_settled hi hn) (by decide)
  unfold parse compact Glyph.ofString
  rwa [String.toList_ofList]

end Json

/-- A response that is printed, on one line or for people, and sent as the body of a reply is what the
reply is taken for. -/
theorem Response.ofReply_render {v : Json} (hv : v.Canonical) (hi : v.Integral)
    (hn : v.nesting ≤ 127) {r : Reply} (hstatus : r.status = 200) (compact : Bool)
    (hbody : r.body = Bytes.ofString ((Response.json v).render compact)) :
    Response.ofReply r = .ok (.json v) := by
  have hspells : Json.Spells 127 ((Response.json v).render compact).toList v := by
    cases compact with
    | true =>
      show Json.Spells 127 (String.ofList v.compactChars).toList v
      rw [String.toList_ofList]
      exact Json.spells_compactChars hv hi hn
    | false =>
      show Json.Spells 127 (String.ofList (v.prettyChars 0)).toList v
      rw [String.toList_ofList]
      exact Json.spells_prettyChars hv hi hn 0
  have hread : Json.ofGlyphs? (Glyph.ofBytes r.body) = .ok v := by
    rw [hbody, Glyph.ofBytes_ofString]
    exact Json.ofGlyphs?_of_spells hspells (by decide)
  rw [Response.ofReply, if_pos hstatus, hread]

/-- A value with brackets in brackets, the least and the largest integer, and characters that are
escaped, in a key and in a string. -/
def Json.sample : Json :=
  .object
    [("\"\n", .array [.int (-0x8000000000000000), .string "\x00é😀\\", .array []]),
      ("n", .int 0xFFFFFFFFFFFFFFFF)]

theorem Json.canonical_sample : sample.Canonical := by
  refine .object ?_ ?_
  · unfold Sorted
    decide
  · refine List.forall_mem_cons.mpr ⟨.array ?_, List.forall_mem_singleton.mpr (.number _)⟩
    refine List.forall_mem_cons.mpr ⟨.number _, List.forall_mem_cons.mpr ⟨.string _, ?_⟩⟩
    exact List.forall_mem_singleton.mpr (.array fun _ h => nomatch h)

theorem Json.integral_sample : sample.Integral := by
  refine .object ?_
  refine List.forall_mem_cons.mpr ⟨.array ?_, List.forall_mem_singleton.mpr (.number (by decide))⟩
  refine List.forall_mem_cons.mpr
    ⟨.number (by decide), List.forall_mem_cons.mpr ⟨.string _, ?_⟩⟩
  exact List.forall_mem_singleton.mpr (.array fun _ h => nomatch h)

theorem Response.ofReply_render_sample :
    Json.sample.Canonical ∧ Json.sample.Integral ∧ Json.sample.nesting ≤ 127 ∧
    Response.ofReply ⟨200, "OK", [], Bytes.ofString
      "\x7b\"\\\"\\n\":[-9223372036854775808,\"\\u0000é😀\\\\\",[]],\"n\":18446744073709551615\x7d"⟩ =
        .ok (.json Json.sample) ∧
    Response.ofReply ⟨200, "OK", [], Bytes.ofString
      ("\x7b\n  \"\\\"\\n\": [\n    -9223372036854775808,\n    \"\\u0000é😀\\\\\",\n    []\n  ],\n"
        ++ "  \"n\": 18446744073709551615\n\x7d")⟩ =
        .ok (.json Json.sample) := by
  have hnesting : Json.sample.nesting ≤ 127 := by decide
  refine ⟨Json.canonical_sample, Json.integral_sample, hnesting, ?_, ?_⟩
  · exact Response.ofReply_render Json.canonical_sample Json.integral_sample hnesting rfl true
      (congrArg Bytes.ofString (by decide))
  · exact Response.ofReply_render Json.canonical_sample Json.integral_sample hnesting rfl false
      (congrArg Bytes.ofString (by decide))

end LiveQuery
