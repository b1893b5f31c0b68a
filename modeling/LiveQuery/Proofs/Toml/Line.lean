import LiveQuery.Proofs.Success
import LiveQuery.Proofs.Toml.Quoted
import LiveQuery.Proofs.Toml.Word
import LiveQuery.Toml.Reader

/-!
# Written lines read back

What a line says, apart from where it stands, is its `Content`. A text `Reads` as a content if the
reader makes a line of it that says so, whatever follows. Headers and assignments do, and a document
that is made of such texts is read as lines that say the same (`readLines_flatten`).
-/

namespace LiveQuery.Toml

/-- What a line says. -/
inductive Content where
  | empty
  | assignment (name : String) (value : Scalar)
  | header (way : List String) (name : String)

/-- A line says something, wherever it stands. -/
inductive Line.Says : Line → Content → Prop
  | empty : Says .empty .empty
  | assignment {place : Nat} {key : Key} {value : Scalar} {span : Span} :
    Says (.assignment ⟨place, [], key, .scalar value span⟩) (.assignment key.name value)
  | header (way : List Key) {key : Key} {span : Span} :
    Says (.header ⟨way, key, false, span⟩) (.header (way.map Key.name) key.name)

/-- A text is a line that says something, whatever follows it. -/
structure Reads (text : List Char) (c : Content) : Prop where
  ne_nil : text ≠ []
  readLine : ∀ rest, ∃ line, readLine (text ++ rest) = .ok (line, rest) ∧ line.Says c

/-- A document of lines is read line by line. -/
theorem readLines_flatten {texts : List (List Char)} {cs : List Content}
    (h : List.Forall₂ Reads texts cs) {n : Nat} (hn : texts.flatten.length ≤ n) :
    ∃ lines, readLines n texts.flatten = .ok lines ∧ List.Forall₂ Line.Says lines cs := by
  induction h generalizing n with
  | nil =>
    refine ⟨[], ?_, .nil⟩
    cases n <;> rfl
  | @cons text c texts cs htext _ ih =>
    obtain ⟨line, hline, hsays⟩ := htext.readLine texts.flatten
    match text, htext.ne_nil with
    | d :: text, _ =>
      simp only [List.flatten_cons, List.cons_append, List.length_cons, List.length_append] at hn
      match n with
      | n + 1 =>
        obtain ⟨lines, hlines, hall⟩ := ih (n := n) (by omega)
        refine ⟨line :: lines, ?_, .cons hsays hall⟩
        rw [List.flatten_cons, List.cons_append, readLines, ← List.cons_append, hline]
        simp only [ok_bind, hlines]
        rfl

theorem reads_break : Reads ['\n'] .empty where
  ne_nil := by simp
  readLine rest := ⟨.empty, rfl, .empty⟩

/-- A comment without control characters. -/
theorem reads_comment {text : List Char} (h : ∀ c ∈ text, Quoted.isControl c = false) :
    Reads ('#' :: (text ++ ['\n'])) .empty where
  ne_nil := by simp
  readLine rest := by
    have hcomment : skipComment ('#' :: (text ++ '\n' :: rest)) = '\n' :: rest := by
      have hall : ∀ c ∈ text, (!Quoted.isControl c) = true := fun c hc => by rw [h c hc]; rfl
      rw [skipComment, List.dropWhile_append_of_pos hall]
      exact List.dropWhile_cons_of_neg (by decide)
    have hline (cs : List Char) : Toml.readLine ('#' :: cs) =
        readBreak (skipComment ('#' :: cs)) >>= fun r => pure (.empty, r.2) := rfl
    refine ⟨.empty, ?_, .empty⟩
    rw [List.cons_append, List.append_assoc, List.singleton_append, hline, hcomment]
    rfl

/-- Whether a line says nothing: it is empty, or a comment without control characters. -/
def isRemark : List Char → Bool
  | [] => true
  | c :: text => c = '#' && text.all fun d => !Quoted.isControl d

theorem reads_remark {line : List Char} (h : isRemark line = true) :
    Reads (line ++ ['\n']) .empty := by
  cases line with
  | nil => exact reads_break
  | cons c text =>
    simp only [isRemark, Bool.and_eq_true, decide_eq_true_eq, List.all_eq_true,
      Bool.not_eq_true'] at h
    obtain ⟨rfl, hall⟩ := h
    exact reads_comment hall

/-- A line break ends what is left of a line. -/
theorem readTail_break (rest : List Char) : readTail ('\n' :: rest) = .ok ((), rest) := rfl

/-! ## Keys -/

/-- How a written key starts. -/
def startsKey (c : Char) : Bool := c = '"' || c = '\'' || isKeyChar c

theorem ne_of_startsKey {c : Char} (h : startsKey c = true) :
    isBlank c = false ∧ c ≠ '[' ∧ c ≠ '#' ∧ c ≠ '\n' ∧ c ≠ '\r' := by
  refine ⟨?_, ?_, ?_, ?_, ?_⟩
  · by_contra hb
    simp only [isBlank, Bool.not_eq_false, Bool.or_eq_true, decide_eq_true_eq] at hb
    rcases hb with rfl | rfl <;> cases h
  all_goals
    rintro rfl
    cases h

theorem exists_write_cons (style : Style) (cs : List Char) :
    ∃ q tail, style.write cs = q :: tail ∧ (q = '"' ∨ q = '\'') := by
  cases style <;> simp [Style.write]

theorem all_isKeyChar_of_isBare {cs : List Char} (h : isBare cs = true) :
    cs ≠ [] ∧ ∀ c ∈ cs, isKeyChar c = true := by
  simp only [isBare, Bool.and_eq_true, Bool.not_eq_true', List.isEmpty_eq_false_iff,
    List.all_eq_true] at h
  exact h

theorem exists_writeKey_cons (s : String) :
    ∃ c tail, (writeKey s).toList = c :: tail ∧ startsKey c = true := by
  simp only [writeKey]
  split
  · rename_i hbare
    obtain ⟨hne, hall⟩ := all_isKeyChar_of_isBare hbare
    match hs : s.toList, hne with
    | c :: tail, _ =>
      have hc := hall c (hs ▸ List.mem_cons_self ..)
      exact ⟨c, tail, rfl, by simp [startsKey, hc]⟩
  · obtain ⟨q, tail, hq, hquote⟩ := exists_write_cons (Style.ofKey s.toList) s.toList
    refine ⟨q, tail, by simpa using hq, ?_⟩
    rcases hquote with rfl | rfl <;> rfl

theorem skipBlanks_cons {c : Char} (hc : isBlank c = false) (rest : List Char) :
    skipBlanks (c :: rest) = c :: rest :=
  List.dropWhile_cons_of_neg (by simp [hc])

theorem skipBlanks_writeKey (s : String) (rest : List Char) :
    skipBlanks ((writeKey s).toList ++ rest) = (writeKey s).toList ++ rest := by
  obtain ⟨c, tail, hkey, hc⟩ := exists_writeKey_cons s
  rw [hkey, List.cons_append, skipBlanks_cons (ne_of_startsKey hc).1]

/-- A name without quotes is read back, if what follows is no part of it. -/
theorem readName_bare {name : List Char} (h : isBare name = true) {c : Char}
    (hc : isKeyChar c = false) (rest : List Char) :
    readName (name ++ c :: rest) = .ok (String.ofList name, c :: rest) := by
  obtain ⟨hne, hall⟩ := all_isKeyChar_of_isBare h
  have hquote : ¬ ((name ++ c :: rest).head? = some '"' ∨
      (name ++ c :: rest).head? = some '\'') := by
    match name, hne with
    | d :: name, _ =>
      have hd := hall d (List.mem_cons_self ..)
      simp only [List.cons_append, List.head?_cons, Option.some.injEq]
      rintro (rfl | rfl) <;> cases hd
  have htake : (name ++ c :: rest).takeWhile isKeyChar = name := by
    rw [List.takeWhile_append_of_pos hall, List.takeWhile_cons_of_neg (by simp [hc]),
      List.append_nil]
  have hdrop : (name ++ c :: rest).dropWhile isKeyChar = c :: rest := by
    rw [List.dropWhile_append_of_pos hall, List.dropWhile_cons_of_neg (by simp [hc])]
  have hempty : name.isEmpty = false := by simpa using hne
  simp only [readName, if_neg hquote, htake, hdrop, hempty, Bool.false_eq_true, if_false]

/-- A written key is read back, if what follows is no part of a key. -/
theorem readName_writeKey (s : String) {c : Char} (hc : isKeyChar c = false) (rest : List Char) :
    readName ((writeKey s).toList ++ c :: rest) = .ok (s, c :: rest) := by
  simp only [writeKey]
  split
  · rename_i hbare
    rw [readName_bare hbare hc, String.ofList_toList]
  · rw [String.toList_ofList]
    have hquote : ((Style.ofKey s.toList).write s.toList ++ c :: rest).head? = some '"' ∨
        ((Style.ofKey s.toList).write s.toList ++ c :: rest).head? = some '\'' := by
      obtain ⟨q, tail, hq, hquote⟩ := exists_write_cons (Style.ofKey s.toList) s.toList
      rw [hq]
      simpa using hquote
    simp only [readName, if_pos hquote, Quoted.readLine_write, ok_bind, String.ofList_toList]
    rfl

/-! ## Assignments -/

/-- A text is a value without values inside it, if the line ends behind it. -/
structure Spells (text : List Char) (value : Scalar) : Prop where
  starts : ∃ c tail, text = c :: tail ∧ isBlank c = false ∧ c ≠ '[' ∧ c ≠ '\x7b'
  readScalar : ∀ rest, ∃ span,
    readScalar (text ++ '\n' :: rest) = .ok (.scalar value span, '\n' :: rest)

theorem spells_string (s : String) : Spells (writeValue s).toList (.string s) := by
  have htext : (writeValue s).toList = (Style.ofValue s.toList).write s.toList := by
    simp [writeValue]
  obtain ⟨q, tail, hq, hquote⟩ := exists_write_cons (Style.ofValue s.toList) s.toList
  constructor
  · refine ⟨q, tail, htext.trans hq, ?_⟩
    rcases hquote with rfl | rfl <;> decide
  · intro rest
    have hhead : ((writeValue s).toList ++ '\n' :: rest).head? = some '"' ∨
        ((writeValue s).toList ++ '\n' :: rest).head? = some '\'' := by
      rw [htext, hq]
      simpa using hquote
    have hread := Quoted.read_write s.toList ('\n' :: rest) (by simp) (by simp)
    refine ⟨⟨((writeValue s).toList ++ '\n' :: rest).length, ('\n' :: rest).length⟩, ?_⟩
    rw [htext] at hhead ⊢
    simp only [Toml.readScalar, if_pos hhead, hread, ok_bind, String.ofList_toList]
    rfl

/-- A word is a value. -/
theorem Spells.of_word {word : List Char} {value : Scalar} {c : Char} {tail : List Char}
    (hword : word = c :: tail) (hc : isWordChar c = true)
    (hread : ∀ rest, readWord (word ++ '\n' :: rest) = .ok (value, '\n' :: rest)) :
    Spells word value := by
  constructor
  · refine ⟨c, tail, hword, ?_, ?_, ?_⟩
    · by_contra hb
      simp only [isBlank, Bool.not_eq_false, Bool.or_eq_true, decide_eq_true_eq] at hb
      rcases hb with rfl | rfl <;> cases hc
    all_goals
      rintro rfl
      cases hc
  · intro rest
    have hhead : ¬ ((word ++ '\n' :: rest).head? = some '"' ∨
        (word ++ '\n' :: rest).head? = some '\'') := by
      rw [hword]
      simp only [List.cons_append, List.head?_cons, Option.some.injEq]
      rintro (rfl | rfl) <;> cases hc
    refine ⟨⟨(word ++ '\n' :: rest).length, ('\n' :: rest).length⟩, ?_⟩
    simp only [Toml.readScalar, if_neg hhead, hread, ok_bind]
    rfl

theorem spells_nat {n : Nat} (hn : n ≤ 0x7FFFFFFFFFFFFFFF) :
    Spells (toString n).toList (.integer n) := by
  have hne := Text.toDigits_ne_nil n
  obtain ⟨c, tail, hdigits⟩ := List.exists_cons_of_ne_nil hne
  have hc := Text.isDigit_of_mem_toDigits c (hdigits ▸ List.mem_cons_self ..)
  exact .of_word ((Text.toList_toString_nat n).trans hdigits) (isWordChar_of_isDigit hc) (readWord_nat hn)

theorem spells_truth (b : Bool) : Spells (Text.truth b).toList (.boolean b) := by
  cases b
  · exact .of_word (c := 'f') rfl rfl (readWord_truth false)
  · exact .of_word (c := 't') rfl rfl (readWord_truth true)

theorem Spells.readValue {text : List Char} {value : Scalar} (h : Spells text value) (depth : Nat)
    (rest : List Char) : ∃ span, Toml.readValue (depth + 1) (text ++ '\n' :: rest) =
      .ok (.scalar value span, '\n' :: rest) := by
  obtain ⟨c, tail, rfl, -, harray, htable⟩ := h.starts
  obtain ⟨span, hread⟩ := h.readScalar rest
  refine ⟨span, ?_⟩
  rw [← hread, Toml.readValue.eq_def]
  simp only [List.cons_append]
  split
  · rename_i heq
    exact absurd (List.cons.inj heq).1 harray
  · rename_i heq
    exact absurd (List.cons.inj heq).1 htable
  · rfl

/-- A key of one part ends at anything but a dot. -/
theorem readKey_writeKey (n : Nat) (s : String) (c : Char) (rest : List Char) {d : Char}
    {more : List Char}
    (hc : isKeyChar c = false) (hrest : skipBlanks (c :: rest) = d :: more) (hd : d ≠ '.') :
    ∃ span, readKey (n + 1) ((writeKey s).toList ++ c :: rest) =
      .ok (([], ⟨s, span⟩), d :: more) := by
  refine ⟨⟨((writeKey s).toList ++ c :: rest).length, (c :: rest).length⟩, ?_⟩
  simp only [readKey, skipBlanks_writeKey, readName_writeKey s hc, ok_bind, hrest]
  split
  · rename_i heq
    exact absurd (List.cons.inj heq).1 hd
  · rfl

/-- A written key, an equals sign and a value are read back. -/
theorem readAssignment_written (s : String) {text : List Char} {value : Scalar}
    (h : Spells text value) (depth : Nat) (rest : List Char) :
    ∃ place keySpan span,
      readAssignment (readValue (depth + 1))
          ((writeKey s).toList ++ ' ' :: '=' :: ' ' :: (text ++ '\n' :: rest)) =
        .ok (⟨place, [], ⟨s, keySpan⟩, .scalar value span⟩, '\n' :: rest) := by
  obtain ⟨keySpan, hkey⟩ := readKey_writeKey 78 s ' ' ('=' :: ' ' :: (text ++ '\n' :: rest))
    rfl rfl (by decide)
  obtain ⟨span, hvalue⟩ := h.readValue depth rest
  obtain ⟨c, tail, rfl, hblank, -⟩ := h.starts
  have hskip : skipBlanks (' ' :: (c :: tail ++ '\n' :: rest)) = c :: tail ++ '\n' :: rest := by
    change skipBlanks (c :: (tail ++ '\n' :: rest)) = _
    exact skipBlanks_cons hblank _
  have hequals (rest : List Char) : exactly '=' ('=' :: rest) = .ok ((), rest) := rfl
  refine ⟨(skipBlanks ((writeKey s).toList ++ ' ' :: '=' :: ' ' ::
    (c :: tail ++ '\n' :: rest))).length, keySpan, span, ?_⟩
  simp only [readAssignment, maxParts, hkey, ok_bind, hequals, hskip, hvalue]
  rfl

theorem reads_assignment (s : String) {text : List Char} {value : Scalar} (h : Spells text value) :
    Reads ((writeKey s).toList ++ ' ' :: '=' :: ' ' :: (text ++ ['\n'])) (.assignment s value) where
  ne_nil := by simp
  readLine rest := by
    obtain ⟨place, keySpan, span, hread⟩ := readAssignment_written s h 78 rest
    refine ⟨.assignment ⟨place, [], ⟨s, keySpan⟩, .scalar value span⟩, ?_, .assignment⟩
    obtain ⟨c, tail, hkey, hc⟩ := exists_writeKey_cons s
    obtain ⟨hblank, hbracket, hhash, hbreak, hreturn⟩ := ne_of_startsKey hc
    have htext : (writeKey s).toList ++ ' ' :: '=' :: ' ' :: (text ++ ['\n']) ++ rest =
        (writeKey s).toList ++ ' ' :: '=' :: ' ' :: (text ++ '\n' :: rest) := by
      simp
    rw [htext, Toml.readLine, skipBlanks_writeKey]
    rw [hkey] at hread ⊢
    split
    · rename_i heq
      exact absurd (List.cons.inj heq).1 hbracket
    · rename_i heq
      exact absurd (List.cons.inj heq).1 hbracket
    · have hstart : ((c :: tail ++ ' ' :: '=' :: ' ' :: (text ++ '\n' :: rest)).head?.all fun c =>
          decide (c = '#') || decide (c = '\n') || decide (c = '\r')) = false := by
        simp [hhash, hbreak, hreturn]
      simp only [hstart, Bool.false_eq_true, if_false, maxDepth, hread, ok_bind, readTail_break]
      rfl

/-! ## Headers -/

/-- A line that starts with one bracket is a header. -/
theorem readLine_header (s : String) (rest : List Char) :
    readLine ('[' :: ((writeKey s).toList ++ rest)) =
      readHeader (((writeKey s).toList ++ rest).length + 1) false
        ((writeKey s).toList ++ rest) := by
  obtain ⟨c, tail, hkey, hc⟩ := exists_writeKey_cons s
  have hbracket : c ≠ '[' := (ne_of_startsKey hc).2.1
  rw [Toml.readLine, skipBlanks_cons rfl, hkey, List.cons_append]
  split
  · rename_i heq
    exact absurd (List.cons.inj (List.cons.inj heq).2).1 hbracket
  · rename_i heq
    rw [← (List.cons.inj heq).2]
  · rename_i hno
    exact absurd rfl (hno _)

theorem readHeader_of_readKey (start : Nat) {cs rest : List Char} {way : List Key} {key : Key}
    (hkey : readKey maxParts cs = .ok ((way, key), ']' :: '\n' :: rest)) :
    ∃ span, readHeader start false cs = .ok (.header ⟨way, key, false, span⟩, rest) := by
  refine ⟨⟨start, ('\n' :: rest).length⟩, ?_⟩
  have hbracket : exactly ']' (']' :: '\n' :: rest) = .ok ((), '\n' :: rest) := rfl
  simp only [readHeader, hkey, ok_bind, hbracket, Bool.false_eq_true, if_false, readTail_break]
  rfl

theorem reads_header (s : String) :
    Reads ('[' :: ((writeKey s).toList ++ [']', '\n'])) (.header [] s) where
  ne_nil := by simp
  readLine rest := by
    obtain ⟨keySpan, hkey⟩ := readKey_writeKey 78 s ']' ('\n' :: rest) rfl rfl (by decide)
    obtain ⟨span, hheader⟩ := readHeader_of_readKey
      (((writeKey s).toList ++ ']' :: '\n' :: rest).length + 1) hkey
    refine ⟨.header ⟨[], ⟨s, keySpan⟩, false, span⟩, ?_, .header []⟩
    rw [← hheader, ← readLine_header]
    simp

/-- A key of two parts. -/
theorem readKey_dotted (n : Nat) (way s : String) (rest : List Char) :
    ∃ waySpan span,
      readKey (n + 2) ((writeKey way).toList ++ '.' :: ((writeKey s).toList ++ ']' :: rest)) =
        .ok (([⟨way, waySpan⟩], ⟨s, span⟩), ']' :: rest) := by
  obtain ⟨span, hkey⟩ := readKey_writeKey n s ']' rest rfl rfl (by decide)
  have hdot : skipBlanks ('.' :: ((writeKey s).toList ++ ']' :: rest)) =
      '.' :: ((writeKey s).toList ++ ']' :: rest) := skipBlanks_cons rfl _
  refine ⟨⟨((writeKey way).toList ++ '.' :: ((writeKey s).toList ++ ']' :: rest)).length,
    ('.' :: ((writeKey s).toList ++ ']' :: rest)).length⟩, span, ?_⟩
  rw [readKey]
  simp only [skipBlanks_writeKey, readName_writeKey way (c := '.') rfl, ok_bind, hdot, hkey]
  rfl

theorem reads_subheader (way s : String) :
    Reads ('[' :: ((writeKey way).toList ++ '.' :: ((writeKey s).toList ++ [']', '\n'])))
      (.header [way] s) where
  ne_nil := by simp
  readLine rest := by
    obtain ⟨waySpan, keySpan, hkey⟩ := readKey_dotted 77 way s ('\n' :: rest)
    obtain ⟨span, hheader⟩ := readHeader_of_readKey (((writeKey way).toList ++
      '.' :: ((writeKey s).toList ++ ']' :: '\n' :: rest)).length + 1) hkey
    refine ⟨.header ⟨[⟨way, waySpan⟩], ⟨s, keySpan⟩, false, span⟩, ?_,
      .header [⟨way, waySpan⟩]⟩
    rw [← hheader, ← readLine_header]
    simp

end LiveQuery.Toml
