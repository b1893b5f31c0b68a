import LiveQuery.Json.Decode
import LiveQuery.Proofs.Json.Lexeme
import LiveQuery.Proofs.Success

/-!
# The texts that spell a value

`Spells n cs v` says that the characters `cs` spell the value `v` and that their brackets go down at
most `n` levels. How many blanks stand where is left open, so a value has many spellings; the printers
write some of them. Whatever spells a value is read as this value (`Spells.reads`): one lemma says so
of lists between brackets (`ListReader.read`), for items and for members alike.
-/

namespace LiveQuery.Json

/-- Pieces with commas between them, each behind the same blanks. -/
def listed (before : List Char) : List (List Char) → List Char
  | [] => []
  | [piece] => before ++ piece
  | piece :: next :: rest => before ++ piece ++ ',' :: listed before (next :: rest)

/-- The member with a key and the text of its value. -/
def memberText (gap : List Char) (key : String) (value : List Char) : List Char :=
  quote key ++ ':' :: (gap ++ value)

/-- The characters spell the value, with brackets on at most `n` levels. The members of an object may
come in any order and repeat keys. Every item and member has a text of its own, as equal values need
not be spelled in the same way. -/
inductive Spells : Nat → List Char → Json → Prop
  | null (n : Nat) : Spells n ['n', 'u', 'l', 'l'] .null
  | truth (n : Nat) : Spells n ['t', 'r', 'u', 'e'] (.bool true)
  | falsity (n : Nat) : Spells n ['f', 'a', 'l', 's', 'e'] (.bool false)
  | number (n : Nat) {i : Int} (hi : Number.least ≤ i ∧ i ≤ Number.largest) :
    Spells n (Number.int i).text.toList (.number (.int i))
  | string (n : Nat) (s : String) : Spells n (quote s) (.string s)
  | array {n : Nat} {α : Type} {items : List α} {text : α → List Char} {value : α → Json}
    {before after : List Char} (hbefore : Blank before) (hafter : Blank after)
    (hitems : ∀ a ∈ items, Spells n (text a) (value a)) :
    Spells (n + 1) ('[' :: (listed before (items.map text) ++ after ++ [']']))
      (.array (items.map value))
  | object {n : Nat} {α : Type} {members : List (String × α)} {text : α → List Char}
    {value : α → Json} {before gap after : List Char} (hbefore : Blank before) (hgap : Blank gap)
    (hafter : Blank after) (hmembers : ∀ m ∈ members, Spells n (text m.2) (value m.2)) :
    Spells (n + 1)
      ('\x7b' :: (listed before (members.map fun m => memberText gap m.1 (text m.2)) ++ after ++
        ['\x7d'])) (.obj (members.map fun m => (m.1, value m.2)))

/-- Whatever stands around them, the characters are laid out as a value that is `v`. -/
def Reads (n : Nat) (cs : List Char) (v : Json) : Prop :=
  ∀ bs, Blank bs → ∀ rest, Ends rest → ∀ p fuel, 2 * cs.length ≤ fuel →
    ∃ doc q, Doc.read fuel ⟨bs.map .char ++ (cs.map .char ++ rest), p⟩ = (doc, some ⟨rest, q⟩) ∧
      ∀ depth, n < depth → doc.value depth = .ok v

/-- A value starts with a character that is no blank and does not close a list. -/
def Starts (cs : List Char) : Prop :=
  ∃ c tail, cs = c :: tail ∧ Cursor.isBlank c = false ∧ c ≠ ']'

/-- An integer starts with a minus or a digit. -/
theorem exists_text_int (i : Int) :
    ∃ d ds, (Number.int i).text.toList = d :: ds ∧ (d = '-' ∨ d.isDigit = true) := by
  cases i with
  | ofNat n =>
    obtain ⟨d, ds, hds⟩ := List.exists_cons_of_ne_nil (Text.toDigits_ne_nil n)
    refine ⟨d, ds, (toList_text_ofNat n).trans hds, .inr ?_⟩
    exact Text.isDigit_of_mem_toDigits d (hds ▸ List.mem_cons_self ..)
  | negSucc n => exact ⟨'-', _, toList_text_negSucc n, .inl rfl⟩

theorem ne_of_startsNumber {d c : Char} (hd : d = '-' ∨ d.isDigit = true) (hc : c ≠ '-')
    (hdigit : c.isDigit = false) : d ≠ c := by
  rintro rfl
  rcases hd with hd | hd
  · exact hc hd
  · rw [hdigit] at hd
    cases hd

theorem isBlank_of_startsNumber {d : Char} (hd : d = '-' ∨ d.isDigit = true) :
    Cursor.isBlank d = false := by
  have hspace := ne_of_startsNumber hd (c := ' ') (by decide) (by decide)
  have hline := ne_of_startsNumber hd (c := '\n') (by decide) (by decide)
  have htab := ne_of_startsNumber hd (c := '\t') (by decide) (by decide)
  have hreturn := ne_of_startsNumber hd (c := '\r') (by decide) (by decide)
  simp only [Cursor.isBlank, hspace, hline, htab, hreturn, decide_false, Bool.or_self]

/-- A minus or a digit starts a number. -/
theorem read_number {d : Char} (hd : d = '-' ∨ d.isDigit = true) (fuel : Nat) (rest : List Glyph)
    (p : Position) : Doc.read (fuel + 1) ⟨.char d :: rest, p⟩ =
      (Lexeme.number ⟨.char d :: rest, p⟩).doc .number false p := by
  have hself : (Cursor.mk (.char d :: rest) p).skipBlanks = ⟨.char d :: rest, p⟩ :=
    skipBlanksFrom_of_firm (firm_cons (isBlank_of_startsNumber hd) rest) p
  rw [Doc.read, hself]
  split
  case h_8 d' rest' h =>
    cases h
    rw [if_pos (by simpa using hd)]
  -- Every other case wants a first character that starts no number.
  all_goals
    rename_i h
    cases h
  all_goals exact absurd hd (by decide)

theorem Spells.starts {n : Nat} {cs : List Char} {v : Json} (h : Spells n cs v) : Starts cs := by
  cases h with
  | null => exact ⟨'n', _, rfl, by decide, by decide⟩
  | truth => exact ⟨'t', _, rfl, by decide, by decide⟩
  | falsity => exact ⟨'f', _, rfl, by decide, by decide⟩
  | number n hi =>
    obtain ⟨d, ds, hds, hd⟩ := exists_text_int _
    exact ⟨d, ds, hds, isBlank_of_startsNumber hd,
      ne_of_startsNumber hd (by decide) (by decide)⟩
  | string => exact ⟨'"', _, rfl, by decide, by decide⟩
  | array => exact ⟨'[', _, rfl, by decide, by decide⟩
  | object => exact ⟨'\x7b', _, rfl, by decide, by decide⟩

/-! ## Values without brackets -/

/-- Blanks in front of a value are passed over. -/
theorem read_blanks {bs : List Char} (hbs : Blank bs) {text : List Glyph} (htext : Firm text)
    (p : Position) : ∃ q, ∀ fuel, Doc.read (fuel + 1) ⟨bs.map .char ++ text, p⟩ =
      Doc.read (fuel + 1) ⟨text, q⟩ := by
  obtain ⟨q, hq⟩ := skipBlanks_append hbs htext p
  have hself : (Cursor.mk text q).skipBlanks = ⟨text, q⟩ := skipBlanksFrom_of_firm htext q
  refine ⟨q, fun fuel => ?_⟩
  rw [Doc.read, Doc.read, hq, hself]

/-- A value without brackets is laid out with its start and its end. -/
theorem reads_of_read {n : Nat} {cs : List Char} {v : Json} (make : Position → Position → Doc)
    (hstarts : Starts cs)
    (hread : ∀ rest, Ends rest → ∀ fuel p, ∃ q,
      Doc.read (fuel + 1) ⟨cs.map .char ++ rest, p⟩ = (make p q, some ⟨rest, q⟩))
    (hvalue : ∀ start after depth, (make start after).value depth = .ok v) : Reads n cs v := by
  obtain ⟨c, tail, rfl, hfirm, -⟩ := hstarts
  intro bs hbs rest hrest p fuel hfuel
  rw [List.length_cons] at hfuel
  obtain ⟨fuel, rfl⟩ : ∃ k, fuel = k + 1 := ⟨fuel - 1, by omega⟩
  obtain ⟨q, hq⟩ := read_blanks hbs (firm_cons hfirm (tail.map .char ++ rest)) p
  obtain ⟨q', hq'⟩ := hread rest hrest fuel q
  refine ⟨make q q', q', ?_, fun depth _ => hvalue q q' depth⟩
  rw [← hq']
  exact hq fuel

theorem reads_word (n : Nat) {letter : Char} {letters : List Char} {v : Json}
    {make : Position → Position → Doc} (hstarts : Starts (letter :: letters))
    (hread : ∀ fuel rest p, Doc.read (fuel + 1) ⟨.char letter :: rest, p⟩ =
      (Lexeme.word () letters ⟨rest, p.next⟩).doc (fun _ => make) false p)
    (hvalue : ∀ start after depth, (make start after).value depth = .ok v) :
    Reads n (letter :: letters) v := by
  refine reads_of_read make hstarts ?_ hvalue
  intro rest _ fuel p
  obtain ⟨q, hq⟩ := Lexeme.word_self () letters rest p.next
  refine ⟨q, ?_⟩
  show Doc.read (fuel + 1) ⟨.char letter :: (letters.map .char ++ rest), p⟩ = _
  rw [hread, hq]
  rfl

theorem reads_string (n : Nat) (s : String) : Reads n (quote s) (.string s) := by
  refine reads_of_read (.string (.ok s)) (Spells.string n s).starts ?_ fun _ _ _ => rfl
  intro rest _ fuel p
  obtain ⟨q, hq⟩ := Lexeme.string_quote s rest p
  refine ⟨q, ?_⟩
  show (Lexeme.string ⟨(quote s).map .char ++ rest, p⟩).doc .string true p = _
  rw [hq]
  rfl

theorem reads_number (n : Nat) {i : Int} (hi : Number.least ≤ i ∧ i ≤ Number.largest) :
    Reads n (Number.int i).text.toList (.number (.int i)) := by
  refine reads_of_read (.number (.ok (.int i))) (Spells.number n hi).starts ?_ fun _ _ _ => rfl
  intro rest hrest fuel p
  obtain ⟨q, hq⟩ := Lexeme.number_text hi hrest p
  obtain ⟨d, ds, hds, hd⟩ := exists_text_int i
  refine ⟨q, ?_⟩
  rw [hds] at hq ⊢
  show Doc.read (fuel + 1) ⟨.char d :: (ds.map .char ++ rest), p⟩ = _
  rw [read_number hd]
  show (Lexeme.number ⟨(d :: ds).map .char ++ rest, p⟩).doc .number false p = _
  rw [hq]
  rfl

/-! ## Lists between brackets -/

theorem skipBlanks_self {c : Char} (hc : Cursor.isBlank c = false) (rest : List Glyph)
    (p : Position) : (Cursor.mk (.char c :: rest) p).skipBlanks = ⟨.char c :: rest, p⟩ :=
  skipBlanksFrom_of_firm (firm_cons hc rest) p

theorem ends_append {bs : List Char} (hbs : Blank bs) {rest : List Glyph} (hrest : Ends rest) :
    Ends (bs.map .char ++ rest) := by
  cases bs with
  | nil => exact hrest
  | cons b bs =>
    rintro g ⟨⟩
    exact ⟨b, rfl, .inl (hbs b (List.mem_cons_self ..))⟩

theorem ends_cons {c : Char} (hc : c = ',' ∨ c = ']' ∨ c = '\x7d') (rest : List Glyph) :
    Ends (.char c :: rest) := by
  rintro g ⟨⟩
  exact ⟨c, rfl, .inr hc⟩

theorem exists_listed_cons (before piece : List Char) (pieces : List (List Char)) :
    ∃ more, listed before (piece :: pieces) = before ++ (piece ++ more) := by
  cases pieces with
  | nil => exact ⟨[], by simp [listed]⟩
  | cons next rest => exact ⟨_, List.append_assoc ..⟩

/-- One more entry in front of what is read of a list. -/
def consEntry (d : δ) (more : List δ × Stop × Option Cursor) : List δ × Stop × Option Cursor :=
  (d :: more.1, more.2)

/-- What a reader of a list does at its end, at a comma and at an entry. -/
structure ListReader {α δ : Type} (R : Nat → Bool → Cursor → List δ × Stop × Option Cursor)
    (closing : Char) (before after : List Char) (text : α → List Char) (Good : δ → α → Prop)
    (xs : List α) : Prop where
  pos : ∀ x ∈ xs, 0 < (text x).length
  close : ∀ fuel first rest p, ∃ q,
    R (fuel + 1) first ⟨after.map .char ++ .char closing :: rest, p⟩ =
      ([], .closed q, some ⟨rest, q⟩)
  comma : ∀ x ∈ xs, ∀ fuel rest p,
    R (fuel + 1) false ⟨.char ',' :: (before.map .char ++ ((text x).map .char ++ rest)), p⟩ =
      R (fuel + 1) true ⟨before.map .char ++ ((text x).map .char ++ rest), p.next⟩
  entry : ∀ x ∈ xs, ∀ rest, Ends rest → ∀ fuel, 2 * (text x).length ≤ fuel → ∀ p, ∃ d q,
    R (fuel + 1) true ⟨before.map .char ++ ((text x).map .char ++ rest), p⟩ =
      consEntry d (R fuel false ⟨rest, q⟩) ∧ Good d x

/-- A list is read to its bracket, entry by entry. -/
theorem ListReader.read {α δ : Type} {R : Nat → Bool → Cursor → List δ × Stop × Option Cursor}
    {closing : Char} {before after : List Char} {text : α → List Char} {Good : δ → α → Prop}
    {xs : List α} (h : ListReader R closing before after text Good xs)
    (hclosing : closing = ']' ∨ closing = '\x7d') (hafter : Blank after)
    (rest : List Glyph) {fuel : Nat} (hfuel : 2 * (listed before (xs.map text)).length + 1 ≤ fuel)
    (p : Position) : ∃ ds q,
      R fuel true ⟨(listed before (xs.map text)).map .char ++
        (after.map .char ++ .char closing :: rest), p⟩ = (ds, .closed q, some ⟨rest, q⟩) ∧
      List.Forall₂ Good ds xs := by
  have hend : Ends (after.map .char ++ .char closing :: rest) :=
    ends_append hafter (ends_cons (.inr hclosing) rest)
  obtain ⟨fuel, rfl⟩ : ∃ k, fuel = k + 1 := ⟨fuel - 1, by omega⟩
  induction xs generalizing fuel p with
  | nil =>
    obtain ⟨q, hq⟩ := h.close fuel true rest p
    exact ⟨[], q, hq, .nil⟩
  | cons x xs ih =>
    have hx : x ∈ x :: xs := List.mem_cons_self ..
    have hmore : ListReader R closing before after text Good xs :=
      ⟨fun y hy => h.pos y (List.mem_cons_of_mem x hy), h.close,
        fun y hy => h.comma y (List.mem_cons_of_mem x hy),
        fun y hy => h.entry y (List.mem_cons_of_mem x hy)⟩
    have hpos := h.pos x hx
    cases xs with
    | nil =>
      simp only [List.map_cons, List.map_nil, listed, List.length_append] at hfuel
      obtain ⟨d, q, hd, hgood⟩ := h.entry x hx _ hend fuel (by omega) p
      obtain ⟨fuel, rfl⟩ : ∃ k, fuel = k + 1 := ⟨fuel - 1, by omega⟩
      obtain ⟨q', hq'⟩ := h.close fuel false rest q
      refine ⟨[d], q', ?_, .cons hgood .nil⟩
      simp only [List.map_cons, List.map_nil, listed, List.map_append, List.append_assoc]
      rw [hd, hq']
      rfl
    | cons y ys =>
      simp only [List.map_cons, listed, List.length_append, List.length_cons] at hfuel ih
      have hcomma : Ends (.char ',' :: ((listed before (text y :: ys.map text)).map .char ++
          (after.map .char ++ .char closing :: rest))) := ends_cons (.inl rfl) _
      obtain ⟨d, q, hd, hgood⟩ := h.entry x hx _ hcomma fuel (by omega) p
      obtain ⟨fuel, rfl⟩ : ∃ k, fuel = k + 1 := ⟨fuel - 1, by omega⟩
      obtain ⟨ds, q', hq', hgoods⟩ := ih hmore q.next fuel (by omega)
      refine ⟨d :: ds, q', ?_, .cons hgood hgoods⟩
      simp only [List.map_cons, listed, List.map_append, List.append_assoc, List.cons_append]
      rw [hd]
      -- Behind the comma the list is read as if it began there.
      obtain ⟨more, hy⟩ := exists_listed_cons before (text y) (ys.map text)
      rw [hy] at hq' ⊢
      simp only [List.map_append, List.append_assoc] at hq' ⊢
      rw [h.comma y (by simp), hq']
      rfl

/-- A list is read with the brackets around it, if the reader of values hands what stands behind the
opening one to the reader of the list. -/
theorem ListReader.read_brackets {α δ : Type}
    {R : Nat → Bool → Cursor → List δ × Stop × Option Cursor} {closing : Char}
    {before after : List Char} {text : α → List Char} {Good : δ → α → Prop} {xs : List α}
    (h : ListReader R closing before after text Good xs) (opening : Char)
    (make : Position → List δ → Stop → Doc)
    (hopening : Cursor.isBlank opening = false) (hclosing : closing = ']' ∨ closing = '\x7d')
    (hafter : Blank after)
    (hread : ∀ fuel rest p, Doc.read (fuel + 1) ⟨.char opening :: rest, p⟩ =
      (make p (R fuel true ⟨rest, p.next⟩).1 (R fuel true ⟨rest, p.next⟩).2.1,
        (R fuel true ⟨rest, p.next⟩).2.2))
    {bs : List Char} (hbs : Blank bs) (rest : List Glyph) (p : Position) {fuel : Nat}
    (hfuel : 2 * (opening :: (listed before (xs.map text) ++ after ++ [closing])).length ≤ fuel) :
    ∃ ds q q', Doc.read fuel ⟨bs.map .char ++
        ((opening :: (listed before (xs.map text) ++ after ++ [closing])).map .char ++ rest), p⟩ =
      (make q ds (.closed q'), some ⟨rest, q'⟩) ∧ List.Forall₂ Good ds xs := by
  simp only [List.length_cons, List.length_append, List.length_nil] at hfuel
  obtain ⟨fuel, rfl⟩ : ∃ k, fuel = k + 1 := ⟨fuel - 1, by omega⟩
  have htext : (listed before (xs.map text) ++ after ++ [closing]).map Glyph.char ++ rest =
      (listed before (xs.map text)).map .char ++ (after.map .char ++ .char closing :: rest) := by
    simp
  obtain ⟨q, hq⟩ := read_blanks hbs (firm_cons hopening
    ((listed before (xs.map text) ++ after ++ [closing]).map .char ++ rest)) p
  have henough : 2 * (listed before (xs.map text)).length + 1 ≤ fuel := by omega
  obtain ⟨ds, q', hlist, hgood⟩ := h.read hclosing hafter rest henough q.next
  refine ⟨ds, q, q', ?_, hgood⟩
  refine (hq fuel).trans ?_
  rw [hread, htext, hlist]

section Lists

variable {α : Type} {n : Nat} {before after : List Char} {text : α → List Char} {value : α → Json}

/-- The items from one on whose first character the reader has come to. -/
def itemsFrom (fuel : Nat) (c : Cursor) : List (Position × Doc) × Stop × Option Cursor :=
  let (doc, next) := Doc.read fuel c
  match next with
  | none => ([(c.peek, doc)], .inside, none)
  | some next =>
    let (items, stop, end?) := Doc.readItems fuel false next
    ((c.peek, doc) :: items, stop, end?)

theorem readItems_first {c : Cursor} {d : Char} {rest : List Glyph} {q : Position}
    (hc : c.skipBlanks = ⟨.char d :: rest, q⟩) (hd : d ≠ ']') (fuel : Nat) :
    Doc.readItems (fuel + 1) true c = itemsFrom fuel ⟨.char d :: rest, q⟩ := by
  rw [Doc.readItems, hc]
  split
  · rename_i h
    cases h
  · rename_i h
    cases h
    exact absurd rfl hd
  · rfl

theorem readItems_comma {rest tail : List Glyph} {p q : Position} {d : Char}
    (hc : (Cursor.mk rest p.next).skipBlanks = ⟨.char d :: tail, q⟩) (hd : d ≠ ']') (fuel : Nat) :
    Doc.readItems (fuel + 1) false ⟨.char ',' :: rest, p⟩ =
      itemsFrom fuel ⟨.char d :: tail, q⟩ := by
  rw [Doc.readItems, skipBlanks_self (by decide)]
  split
  case h_3 g rest' _ h =>
    cases h
    simp only [Bool.false_eq_true, if_false, if_true, hc]
    split
    · rename_i h
      cases h
    · rename_i h
      cases h
      exact absurd rfl hd
    · rfl
  all_goals
    rename_i h
    cases h

/-- The items of an array are read one by one. -/
theorem readItems_reader {items : List α} (hbefore : Blank before)
    (hafter : Blank after) (hstarts : ∀ a ∈ items, Starts (text a))
    (hreads : ∀ a ∈ items, Reads n (text a) (value a)) :
    ListReader Doc.readItems ']' before after text
      (fun d a => ∀ depth, n < depth → d.2.value depth = .ok (value a)) items where
  pos := by
    intro a ha
    obtain ⟨c, tail, htext, -, -⟩ := hstarts a ha
    rw [htext]
    exact Nat.succ_pos _
  close := by
    intro fuel first rest p
    obtain ⟨q, hq⟩ := skipBlanks_append hafter (firm_cons (c := ']') (by decide) rest) p
    refine ⟨q.next, ?_⟩
    rw [Doc.readItems, hq]
    rfl
  comma := by
    intro a ha fuel rest p
    obtain ⟨c, tail, htext, hfirm, hclosing⟩ := hstarts a ha
    rw [htext]
    obtain ⟨q, hq⟩ := skipBlanks_append hbefore (firm_cons hfirm (tail.map .char ++ rest)) p.next
    exact (readItems_comma hq hclosing fuel).trans (readItems_first hq hclosing fuel).symm
  entry := by
    intro a ha rest hrest fuel hfuel p
    obtain ⟨c, tail, htext, hfirm, hclosing⟩ := hstarts a ha
    obtain ⟨q, hq⟩ := skipBlanks_append hbefore (firm_cons hfirm (tail.map .char ++ rest)) p
    obtain ⟨doc, q', hread, hvalue⟩ := hreads a ha [] blank_nil rest hrest q fuel hfuel
    rw [htext] at hread ⊢
    refine ⟨(Cursor.peek ⟨.char c :: (tail.map .char ++ rest), q⟩, doc), q', ?_, hvalue⟩
    refine (readItems_first hq hclosing fuel).trans ?_
    unfold itemsFrom
    have hread' : Doc.read fuel ⟨.char c :: (tail.map .char ++ rest), q⟩ =
      (doc, some ⟨rest, q'⟩) := hread
    rw [hread']
    rfl

/-- The members from one on whose key the reader has come to. -/
def membersFrom (fuel : Nat) (c : Cursor) : List (Key × Doc) × Stop × Option Cursor :=
  match Lexeme.string c with
  | .broken error skipped => ([], .badKey error skipped, none)
  | .whole name next =>
    let p := next.position
    let colon := next.skipBlanks
    let key (done : Position) : Key := ⟨name, p, settledAt next, done⟩
    match colon.rest with
    | [] => ([(key p, .fault ⟨.eofObject, colon.position⟩)], .inside, none)
    | g :: rest =>
      if g = .char ':' then
        let (doc, next) := Doc.read fuel ⟨rest, colon.position.next⟩
        match next with
        | none => ([(key p, doc)], .inside, none)
        | some next =>
          let (members, stop, end?) := Doc.readMembers fuel false next
          ((key next.skipBlanks.position, doc) :: members, stop, end?)
      else ([(key p, .fault ⟨.expectedColon, colon.peek⟩)], .inside, none)

theorem readMembers_first {c : Cursor} {rest : List Glyph} {q : Position}
    (hc : c.skipBlanks = ⟨.char '"' :: rest, q⟩) (fuel : Nat) :
    Doc.readMembers (fuel + 1) true c = membersFrom fuel ⟨.char '"' :: rest, q⟩ := by
  rw [Doc.readMembers, hc]
  rfl

theorem readMembers_comma {rest tail : List Glyph} {p q : Position}
    (hc : (Cursor.mk rest p.next).skipBlanks = ⟨.char '"' :: tail, q⟩) (fuel : Nat) :
    Doc.readMembers (fuel + 1) false ⟨.char ',' :: rest, p⟩ =
      membersFrom fuel ⟨.char '"' :: tail, q⟩ := by
  rw [Doc.readMembers, skipBlanks_self (by decide)]
  split
  case h_3 g rest' _ h =>
    cases h
    simp only [Bool.false_eq_true, if_false, if_true, hc]
    rfl
  all_goals
    rename_i h
    cases h

theorem membersFrom_memberText {gap cs : List Char} {v : Json} (hgap : Blank gap)
    (hvalue : Reads n cs v) (key : String) {rest : List Glyph} (hrest : Ends rest) {fuel : Nat}
    (hfuel : 2 * (memberText gap key cs).length ≤ fuel) (p : Position) : ∃ d q,
      membersFrom fuel ⟨(memberText gap key cs).map .char ++ rest, p⟩ =
        consEntry d (Doc.readMembers fuel false ⟨rest, q⟩) ∧
      d.1.name = .ok key ∧ ∀ depth, n < depth → d.2.value depth = .ok v := by
  obtain ⟨q, hq⟩ := Lexeme.string_quote key
    (.char ':' :: (gap.map .char ++ (cs.map .char ++ rest))) p
  have hcolon := skipBlanks_self (c := ':') (by decide)
    (gap.map .char ++ (cs.map .char ++ rest)) q
  have hlength : 2 * cs.length ≤ fuel := by
    simp only [memberText, List.length_append, List.length_cons] at hfuel
    omega
  obtain ⟨doc, q', hread, hdoc⟩ := hvalue gap hgap rest hrest q.next fuel hlength
  have htext : (memberText gap key cs).map Glyph.char ++ rest =
      (quote key).map .char ++ .char ':' :: (gap.map .char ++ (cs.map .char ++ rest)) := by
    simp [memberText]
  let after : Cursor := ⟨.char ':' :: (gap.map .char ++ (cs.map .char ++ rest)), q⟩
  let k : Key := ⟨.ok key, q, settledAt after, (Cursor.mk rest q').skipBlanks.position⟩
  refine ⟨(k, doc), q', ?_, rfl, hdoc⟩
  unfold membersFrom
  rw [htext, hq]
  simp only [hcolon, if_true, hread]
  rfl

theorem starts_memberText (gap cs : List Char) (key : String) :
    ∃ tail, memberText gap key cs = '"' :: tail := ⟨_, rfl⟩

/-- The members of an object are read one by one. -/
theorem readMembers_reader {members : List (String × α)} {gap : List Char}
    (hbefore : Blank before) (hgap : Blank gap) (hafter : Blank after)
    (hreads : ∀ m ∈ members, Reads n (text m.2) (value m.2)) :
    ListReader Doc.readMembers '\x7d' before after (fun m => memberText gap m.1 (text m.2))
      (fun d m => d.1.name = .ok m.1 ∧ ∀ depth, n < depth → d.2.value depth = .ok (value m.2))
      members where
  pos := by
    intro m _
    exact Nat.succ_pos _
  close := by
    intro fuel first rest p
    obtain ⟨q, hq⟩ := skipBlanks_append hafter (firm_cons (c := '\x7d') (by decide) rest) p
    refine ⟨q.next, ?_⟩
    rw [Doc.readMembers, hq]
    rfl
  comma := by
    intro m _ fuel rest p
    obtain ⟨tail, htext⟩ := starts_memberText gap (text m.2) m.1
    rw [htext]
    obtain ⟨q, hq⟩ := skipBlanks_append hbefore
      (firm_cons (c := '"') (by decide) (tail.map .char ++ rest)) p.next
    exact (readMembers_comma hq fuel).trans (readMembers_first hq fuel).symm
  entry := by
    intro m hm rest hrest fuel hfuel p
    obtain ⟨tail, htext⟩ := starts_memberText gap (text m.2) m.1
    obtain ⟨q, hq⟩ := skipBlanks_append hbefore
      (firm_cons (c := '"') (by decide) (tail.map .char ++ rest)) p
    obtain ⟨d, q', hd, hgood⟩ := membersFrom_memberText hgap (hreads m hm) m.1 hrest hfuel q
    refine ⟨d, q', ?_, hgood⟩
    rw [← hd, htext]
    exact readMembers_first hq fuel

/-! ## Every spelling is read -/

theorem itemValues_of_forall₂ {ds : List (Position × Doc)} {items : List α} {depth : Nat}
    (h : List.Forall₂ (fun d a => ∀ depth, n < depth → d.2.value depth = .ok (value a)) ds items)
    (hdepth : n < depth) : Doc.itemValues depth ds = .ok (items.map value) := by
  induction h with
  | nil => rfl
  | cons hd _ ih =>
    rw [Doc.itemValues, hd depth hdepth, ih]
    rfl

theorem memberValues_of_forall₂ {ds : List (Key × Doc)} {members : List (String × α)}
    {depth : Nat}
    (h : List.Forall₂
      (fun d m => d.1.name = .ok m.1 ∧ ∀ depth, n < depth → d.2.value depth = .ok (value m.2))
      ds members)
    (hdepth : n < depth) :
    Doc.memberValues depth ds = .ok (members.map fun m => (m.1, value m.2)) := by
  induction h with
  | nil => rfl
  | cons hd _ ih =>
    rw [Doc.memberValues, hd.1, hd.2 depth hdepth, ih]
    rfl

theorem descend_of_lt {depth : Nat} (h : n + 1 < depth) (start : Position) :
    descend depth start = .ok (depth - 1) := by
  unfold descend
  rw [if_neg (by omega)]

theorem reads_array {items : List α} (hbefore : Blank before) (hafter : Blank after)
    (hstarts : ∀ a ∈ items, Starts (text a)) (hreads : ∀ a ∈ items, Reads n (text a) (value a)) :
    Reads (n + 1) ('[' :: (listed before (items.map text) ++ after ++ [']']))
      (.array (items.map value)) := by
  have hreader := readItems_reader hbefore hafter hstarts hreads
  intro bs hbs rest _ p fuel hfuel
  obtain ⟨ds, q, q', hread, hgood⟩ :=
    hreader.read_brackets '[' .array (by decide) (.inl rfl) hafter
      (fun _ _ _ => rfl) hbs rest p hfuel
  refine ⟨.array q ds (.closed q'), q', hread, ?_⟩
  intro depth hdepth
  have hvalues : Doc.itemValues (depth - 1) ds = .ok (items.map value) :=
    itemValues_of_forall₂ hgood (by omega)
  rw [Doc.value, descend_of_lt hdepth, ok_bind, hvalues]
  rfl

theorem reads_object {members : List (String × α)} {gap : List Char} (hbefore : Blank before)
    (hgap : Blank gap) (hafter : Blank after)
    (hreads : ∀ m ∈ members, Reads n (text m.2) (value m.2)) :
    Reads (n + 1)
      ('\x7b' :: (listed before (members.map fun m => memberText gap m.1 (text m.2)) ++ after ++
        ['\x7d'])) (.obj (members.map fun m => (m.1, value m.2))) := by
  have hreader := readMembers_reader hbefore hgap hafter hreads
  intro bs hbs rest _ p fuel hfuel
  obtain ⟨ds, q, q', hread, hgood⟩ :=
    hreader.read_brackets '\x7b' .object (by decide) (.inr rfl) hafter
      (fun _ _ _ => rfl) hbs rest p hfuel
  refine ⟨.object q ds (.closed q'), q', hread, ?_⟩
  intro depth hdepth
  have hvalues : Doc.memberValues (depth - 1) ds =
      .ok (members.map fun m => (m.1, value m.2)) := memberValues_of_forall₂ hgood (by omega)
  rw [Doc.value, descend_of_lt hdepth, ok_bind, hvalues]
  rfl

end Lists

/-- Whatever spells a value is read as this value. -/
theorem Spells.reads {n : Nat} {cs : List Char} {v : Json} (h : Spells n cs v) : Reads n cs v := by
  induction h with
  | null n => exact reads_word n (Spells.null n).starts (fun _ _ _ => rfl) fun _ _ _ => rfl
  | truth n => exact reads_word n (Spells.truth n).starts (fun _ _ _ => rfl) fun _ _ _ => rfl
  | falsity n => exact reads_word n (Spells.falsity n).starts (fun _ _ _ => rfl) fun _ _ _ => rfl
  | number n hi => exact reads_number n hi
  | string n s => exact reads_string n s
  | array hbefore hafter hitems ih =>
    exact reads_array hbefore hafter (fun v hv => (hitems v hv).starts) ih
  | object hbefore hgap hafter _ ih => exact reads_object hbefore hgap hafter ih

end LiveQuery.Json
