import Mathlib.Data.List.Basic
import Mathlib.Tactic.SplitIfs
import LiveQuery.Json.Printer
import LiveQuery.Json.Reader
import LiveQuery.Proofs.Text.Integer

/-!
# Words, numbers and strings of a JSON text, read back

What is written of a value without brackets is cut off the text as this value, whatever follows it
(`Lexeme.word_self`, `Lexeme.number_text`, `Lexeme.string_quote`); behind a number something has to
follow that ends it (`Ends`).
-/

namespace LiveQuery.Json

/-- Blanks between tokens. -/
def Blank (bs : List Char) : Prop := ∀ c ∈ bs, Cursor.isBlank c = true

/-- What can stand behind a value: nothing, a blank, a comma or a closing bracket. -/
def Ends (rest : List Glyph) : Prop :=
  ∀ g ∈ rest.head?, ∃ c : Char, g = .char c ∧
    (Cursor.isBlank c = true ∨ c = ',' ∨ c = ']' ∨ c = '\x7d')

/-- The text does not start with a blank. -/
def Firm (text : List Glyph) : Prop := ∀ c, text.head? = some (.char c) → Cursor.isBlank c = false

theorem blank_nil : Blank [] := fun _ hc => absurd hc List.not_mem_nil

theorem ends_nil : Ends [] := fun _ hg => nomatch hg

theorem firm_cons {c : Char} (hc : Cursor.isBlank c = false) (rest : List Glyph) :
    Firm (.char c :: rest) := by
  intro d hd
  cases hd
  exact hc

/-! ## Blanks -/

theorem skipBlanksFrom_of_firm {text : List Glyph} (h : Firm text) (p : Position) :
    Cursor.skipBlanksFrom p text = ⟨text, p⟩ := by
  unfold Cursor.skipBlanksFrom
  split
  · rename_i c rest
    rw [if_neg (ne_true_of_eq_false (h c rfl))]
  · rfl

/-- Blanks are passed over, up to the first character that is none. -/
theorem skipBlanks_append {bs : List Char} (hbs : Blank bs) {rest : List Glyph} (hrest : Firm rest)
    (p : Position) : ∃ q, (Cursor.mk (bs.map .char ++ rest) p).skipBlanks = ⟨rest, q⟩ := by
  unfold Cursor.skipBlanks
  induction bs generalizing p with
  | nil => exact ⟨p, skipBlanksFrom_of_firm hrest p⟩
  | cons b bs ih =>
    obtain ⟨hb, hbs⟩ := List.forall_mem_cons.mp hbs
    obtain ⟨q, hq⟩ := ih hbs (p.after (.char b))
    refine ⟨q, ?_⟩
    rw [← hq]
    show Cursor.skipBlanksFrom p (.char b :: (bs.map .char ++ rest)) = _
    rw [Cursor.skipBlanksFrom, if_pos hb]

/-! ## Words -/

theorem Lexeme.word_self (value : α) (letters : List Char) (rest : List Glyph) (p : Position) :
    ∃ q, Lexeme.word value letters ⟨letters.map .char ++ rest, p⟩ =
      .whole (.ok value) ⟨rest, q⟩ := by
  induction letters generalizing p with
  | nil => exact ⟨p, rfl⟩
  | cons letter letters ih =>
    obtain ⟨q, hq⟩ := ih p.next
    refine ⟨q, ?_⟩
    rw [← hq]
    simp [Lexeme.word]

/-! ## Numbers -/

/-- The value of a digit. -/
def digitValue (c : Char) : Nat := c.toNat - 48

theorem digits_append {ds : List Char} (hds : ∀ c ∈ ds, c.isDigit = true) {rest : List Glyph}
    (hrest : ∀ c, rest.head? = some (.char c) → c.isDigit = false) (p : Position) :
    ∃ q, (Cursor.mk (ds.map .char ++ rest) p).digits = (ds.map digitValue, ⟨rest, q⟩) := by
  unfold Cursor.digits
  induction ds generalizing p with
  | nil =>
    refine ⟨p, ?_⟩
    show Cursor.digitsFrom p rest = ([], ⟨rest, p⟩)
    unfold Cursor.digitsFrom
    split
    · rename_i c tail
      rw [if_neg (ne_true_of_eq_false (hrest c rfl))]
    · rfl
  | cons d ds ih =>
    obtain ⟨hd, hds⟩ := List.forall_mem_cons.mp hds
    obtain ⟨q, hq⟩ := ih hds p.next
    refine ⟨q, ?_⟩
    show Cursor.digitsFrom p (.char d :: (ds.map .char ++ rest)) = _
    rw [Cursor.digitsFrom, if_pos hd]
    show (_ :: (Cursor.digitsFrom p.next (ds.map .char ++ rest)).1,
      (Cursor.digitsFrom p.next (ds.map .char ++ rest)).2) = _
    simp only at hq
    rw [hq]
    rfl

/-- Digits that fit 64 bits are gathered to the number that they spell. -/
theorem foldl_whole (ds : List Char) (m : Nat) (h : ds.foldl Text.appendDigit m < wordLimit) :
    (ds.map digitValue).foldl Gathered.whole ⟨m, 0, false⟩ =
      ⟨ds.foldl Text.appendDigit m, 0, false⟩ := by
  induction ds generalizing m with
  | nil => rfl
  | cons d ds ih =>
    have hfits : m * 10 + digitValue d < wordLimit :=
      Nat.lt_of_le_of_lt (Text.le_foldl_appendDigit (Text.appendDigit m d) ds) h
    have hstep : Gathered.whole ⟨m, 0, false⟩ (digitValue d) =
        ⟨Text.appendDigit m d, 0, false⟩ := by
      unfold Gathered.whole
      rw [if_neg Bool.false_ne_true, if_pos hfits]
      rfl
    rw [List.map_cons, List.foldl_cons, hstep]
    exact ih (Text.appendDigit m d) h

/-- No zero stands in front of other digits. -/
theorem digitValues_toDigits (n : Nat) :
    (Nat.toDigits 10 n).map digitValue ≠ [] ∧
      ∀ d ds, (Nat.toDigits 10 n).map digitValue ≠ 0 :: d :: ds := by
  refine ⟨fun hnil => Text.toDigits_ne_nil n (List.map_eq_nil_iff.mp hnil), ?_⟩
  intro d ds hzero
  obtain ⟨c, cs, hcs, hc, hrest⟩ := List.map_eq_cons_iff.mp hzero
  have hdigit := Text.isDigit_of_mem_toDigits c (hcs ▸ List.mem_cons_self ..)
  have hc0 : c = '0' := by
    have hge : 48 ≤ c.toNat := (Char.isDigit_iff_toNat.mp hdigit).1
    unfold digitValue at hc
    apply Char.toNat_inj.mp
    show c.toNat = 48
    omega
  by_cases hn : 0 < n
  · apply Text.head?_toDigits_ne_zero hn
    rw [hcs, hc0]
    rfl
  · have hn0 : n = 0 := by omega
    subst hn0
    have hone := congrArg List.length hcs
    have hmore := congrArg List.length hrest
    simp only [List.length_map, List.length_cons] at hone hmore
    have hdigits : (Nat.toDigits 10 0).length = 1 := by decide
    omega

/-- What can stand behind a value does not go on with a number. -/
theorem Ends.not_number {rest : List Glyph} (h : Ends rest) (c : Char)
    (hc : rest.head? = some (.char c)) :
    c.isDigit = false ∧ c ≠ '.' ∧ c ≠ 'e' ∧ c ≠ 'E' := by
  obtain ⟨d, hd, hcase⟩ := h _ hc
  cases hd
  rcases hcase with hblank | rfl | rfl | rfl
  · simp only [Cursor.isBlank, Bool.or_eq_true, decide_eq_true_eq] at hblank
    rcases hblank with ((rfl | rfl) | rfl) | rfl <;> decide
  · decide
  · decide
  · decide

/-- The digits of a number of 64 bits are read as this number. -/
theorem unsigned_toDigits (negative : Bool) {n : Nat} (hn : n < wordLimit) {rest : List Glyph}
    (hrest : Ends rest) (p : Position) :
    ∃ q, unsigned negative ⟨(Nat.toDigits 10 n).map .char ++ rest, p⟩ =
      .whole (.ok (integer negative n)) ⟨rest, q⟩ := by
  have hdigit := Text.isDigit_of_mem_toDigits (n := n)
  obtain ⟨q, hq⟩ := digits_append hdigit (fun c hc => (hrest.not_number c hc).1) p
  refine ⟨q, ?_⟩
  have hgathered : ((Nat.toDigits 10 n).map digitValue).foldl Gathered.whole .empty =
      ⟨n, 0, false⟩ := by
    have hdecimal : (Nat.toDigits 10 n).foldl Text.appendDigit 0 = n := Text.decimal_toDigits n
    have hfold := foldl_whole (Nat.toDigits 10 n) 0 (hdecimal.symm ▸ hn)
    rw [hdecimal] at hfold
    exact hfold
  obtain ⟨hnil, hzero⟩ := digitValues_toDigits n
  unfold unsigned
  rw [hq]
  generalize (Nat.toDigits 10 n).map digitValue = ds at hgathered hnil hzero
  -- The reader tells no digits, a zero in front of others, and a number apart.
  split
  · rename_i heq
    exact absurd (Prod.mk.inj heq).1 hnil
  · rename_i d ds' next heq
    exact absurd (Prod.mk.inj heq).1 (hzero d ds')
  · rename_i ds' next _ _ heq
    obtain ⟨rfl, rfl⟩ := Prod.mk.inj heq
    simp only [hgathered]
    split
    · rename_i tail
      exact absurd rfl (hrest.not_number '.' rfl).2.1
    · rename_i m tail _
      have hmark : isExponentMark m = false := by
        by_contra hm
        simp only [isExponentMark, Bool.not_eq_false, Bool.or_eq_true, decide_eq_true_eq] at hm
        rcases hm with rfl | rfl
        · exact (hrest.not_number 'e' rfl).2.2.1 rfl
        · exact (hrest.not_number 'E' rfl).2.2.2 rfl
      rw [if_neg (ne_true_of_eq_false hmark), if_neg Bool.false_ne_true]
    · rw [if_neg Bool.false_ne_true]

theorem toList_text_ofNat (n : Nat) :
    (Number.int (.ofNat n)).text.toList = Nat.toDigits 10 n :=
  Text.toList_toString_nat n

theorem toList_text_negSucc (n : Nat) :
    (Number.int (.negSucc n)).text.toList = '-' :: Nat.toDigits 10 (n + 1) := by
  show ("-" ++ toString (n + 1)).toList = _
  rw [String.toList_append, Text.toList_toString_nat]
  rfl

/-- An integer that the reader keeps as an integer is read back from its text. -/
theorem Lexeme.number_text {i : Int} (hi : Number.least ≤ i ∧ i ≤ Number.largest)
    {rest : List Glyph} (hrest : Ends rest) (p : Position) :
    ∃ q, Lexeme.number ⟨(Number.int i).text.toList.map .char ++ rest, p⟩ =
      .whole (.ok (.int i)) ⟨rest, q⟩ := by
  obtain ⟨hleast, hlargest⟩ := hi
  have hlow : Number.least = -0x8000000000000000 := rfl
  have hhigh : Number.largest = 0xFFFFFFFFFFFFFFFF := rfl
  have hlimit : wordLimit = 0x10000000000000000 := rfl
  cases i with
  | ofNat n =>
    have hn : n < wordLimit := by
      rw [Int.ofNat_eq_natCast] at hlargest
      omega
    obtain ⟨q, hq⟩ := unsigned_toDigits false hn hrest p
    refine ⟨q, ?_⟩
    rw [toList_text_ofNat]
    have hfirst : ∀ tail, (Nat.toDigits 10 n).map Glyph.char ++ rest ≠ .char '-' :: tail := by
      intro tail hminus
      obtain ⟨d, ds, hds⟩ := List.exists_cons_of_ne_nil (Text.toDigits_ne_nil n)
      have hd := Text.isDigit_of_mem_toDigits d (hds ▸ List.mem_cons_self ..)
      rw [hds] at hminus
      cases (List.cons.inj hminus).1
      exact absurd hd (by decide)
    unfold Lexeme.number
    split
    · rename_i tail htail
      exact absurd htail (hfirst tail)
    · rw [hq]
      rfl
  | negSucc n =>
    have hn : n + 1 < wordLimit := by
      rw [Int.negSucc_eq] at hleast
      omega
    obtain ⟨q, hq⟩ := unsigned_toDigits true hn hrest p.next
    refine ⟨q, ?_⟩
    have hvalue : integer true (n + 1) = .int (.negSucc n) := by
      have hkept : ¬ (n + 1 = 0 ∨ -((n + 1 : Nat) : Int) < Number.least) := by
        rw [Int.negSucc_eq] at hleast
        omega
      unfold integer
      rw [if_neg (by decide), if_neg hkept]
      rfl
    rw [toList_text_negSucc, ← hvalue]
    exact hq

/-! ## Strings -/

theorem hexValue?_hexDigit : ∀ n < 16, hexValue? (hexDigit n) = some n := by decide

/-- A `\u` escape of a control, read back. -/
theorem escape_control {c : Char} (hc : c.toNat < 0x20) (rest : List Glyph) (p : Position) :
    ∃ q, escape p (.char 'u' :: .char '0' :: .char '0' :: .char (hexDigit (c.toNat / 16)) ::
      .char (hexDigit (c.toNat % 16)) :: rest) = .spells c rest q := by
  have hhigh := hexValue?_hexDigit (c.toNat / 16) (by omega)
  have hlow := hexValue?_hexDigit (c.toNat % 16) (by omega)
  have hzero : hexValue? '0' = some 0 := by decide
  have hjoin : ((0 * 16 + 0) * 16 + c.toNat / 16) * 16 + c.toNat % 16 = c.toNat := by omega
  have hnotLow : isLow c.toNat = false := by
    simp only [isLow, Bool.and_eq_false_iff, decide_eq_false_iff_not]
    omega
  have hnotHigh : isHigh c.toNat = false := by
    simp only [isHigh, Bool.and_eq_false_iff, decide_eq_false_iff_not]
    omega
  refine ⟨⟨p.line, p.column + 5⟩, ?_⟩
  simp only [escape, hexFour?, hzero, hhigh, hlow, Option.bind_eq_bind, Option.bind_some, hjoin,
    hnotLow, hnotHigh, Bool.false_eq_true, if_false, Char.ofNat_toNat, List.drop_succ_cons,
    List.drop_zero]

theorem stringFrom_spells {held : Held} {p q : Position} {c : Char} {rest left : List Glyph}
    (h : escape p.next rest = .spells c left q) :
    stringFrom held p (.char '\\' :: rest) = stringFrom (held.push c) q left := by
  rw [stringFrom, if_neg (by decide), if_pos rfl]
  split
  · rename_i x left' q' hspells
    rw [hspells] at h
    cases h
    rfl
  · rename_i hfaulty
    rw [hfaulty] at h
    cases h
  · rename_i hbroken
    rw [hbroken] at h
    cases h

/-- Each character of a string is read back, escaped or not. -/
theorem stringFrom_escapeChar (held : Held) (c : Char) (rest : List Glyph) (p : Position) :
    ∃ q, stringFrom held p ((escapeChar c).map .char ++ rest) =
      stringFrom (held.push c) q rest := by
  unfold escapeChar
  split_ifs with hquote hbackslash hb hf hn hr ht hcontrol
  · subst hquote
    exact ⟨_, stringFrom_spells rfl⟩
  · subst hbackslash
    exact ⟨_, stringFrom_spells rfl⟩
  · subst hb
    exact ⟨_, stringFrom_spells rfl⟩
  · subst hf
    exact ⟨_, stringFrom_spells rfl⟩
  · subst hn
    exact ⟨_, stringFrom_spells rfl⟩
  · subst hr
    exact ⟨_, stringFrom_spells rfl⟩
  · subst ht
    exact ⟨_, stringFrom_spells rfl⟩
  · obtain ⟨q, hq⟩ := escape_control hcontrol rest p.next
    exact ⟨q, stringFrom_spells hq⟩
  · refine ⟨p.after (.char c), ?_⟩
    show stringFrom held p (.char c :: rest) = _
    rw [stringFrom, if_neg hquote, if_neg hbackslash, if_neg hcontrol]

theorem stringFrom_flatMap (s : List Char) (chars : List Char) (rest : List Glyph) (p : Position) :
    ∃ q, stringFrom ⟨chars, none, none⟩ p ((s.flatMap escapeChar).map .char ++ .char '"' :: rest) =
      .whole (.ok (String.ofList (chars.reverse ++ s))) ⟨rest, q⟩ := by
  induction s generalizing chars p with
  | nil =>
    refine ⟨p.next, ?_⟩
    show stringFrom ⟨chars, none, none⟩ p (.char '"' :: rest) = _
    rw [stringFrom, if_pos rfl, List.append_nil]
    rfl
  | cons c s ih =>
    obtain ⟨q, hq⟩ := stringFrom_escapeChar ⟨chars, none, none⟩ c
      ((s.flatMap escapeChar).map .char ++ .char '"' :: rest) p
    obtain ⟨q', hq'⟩ := ih (c :: chars) q
    refine ⟨q', ?_⟩
    rw [List.flatMap_cons, List.map_append, List.append_assoc, hq]
    show stringFrom ⟨c :: chars, none, none⟩ q _ = _
    rw [hq', List.reverse_cons, List.append_assoc]
    rfl

/-- A string is read back from what is written between the quotes. -/
theorem Lexeme.string_quote (s : String) (rest : List Glyph) (p : Position) :
    ∃ q, Lexeme.string ⟨(quote s).map .char ++ rest, p⟩ = .whole (.ok s) ⟨rest, q⟩ := by
  obtain ⟨q, hq⟩ := stringFrom_flatMap s.toList [] rest p.next
  refine ⟨q, ?_⟩
  have hbody : (quote s).map Glyph.char ++ rest =
      .char '"' :: ((s.toList.flatMap escapeChar).map .char ++ .char '"' :: rest) := by
    simp [quote]
  rw [List.reverse_nil, List.nil_append, String.ofList_toList] at hq
  rw [hbody]
  exact hq

end LiveQuery.Json
