import Mathlib.Data.List.Basic
import LiveQuery.Toml.Printer
import LiveQuery.Toml.Quoted

/-!
# A quoted text reads back

`Style.ofValue` picks a style for a text, `Style.write` writes the text in it, and `Quoted.read`
tells from the quotes which reader is needed. Each reader undoes each character that is written for
it; the only characters that do not stand on their own are quotes between three quotes, of which up
to two may stand in a row (`basicLines_quote`, `literalLines_quote`). `Quoted.read_write` and
`Quoted.readLine_write` are the results for values and for keys. What follows the text must not go
on with another quote.
-/

namespace LiveQuery.Toml

/-! ## Characters -/

theorem needsEscape_of_isControl {c : Char} (hc : Quoted.isControl c = true) (hn : c ≠ '\n') :
    Style.needsEscape c = true := by
  simp only [Quoted.isControl, Style.needsEscape, Bool.or_eq_true, Bool.and_eq_true,
    decide_eq_true_eq] at hc ⊢
  exact hc.imp_left fun h => ⟨h, hn⟩

/-- What a text may hold as it is, apart from a line break. -/
theorem isControl_of_escape? {c : Char} (h : escape? c = none) : Quoted.isControl c = false := by
  by_contra hc
  rw [Bool.not_eq_false] at hc
  have hn : c ≠ '\n' := by
    rintro rfl
    cases h
  have hescape := needsEscape_of_isControl hc hn
  simp only [escape?, hescape, if_true] at h
  split_ifs at h

theorem ne_backslash_of_escape? {c : Char} (h : escape? c = none) : c ≠ '\\' := by
  rintro rfl
  cases h

/-- A character that is escaped is read back from its escape, by a letter or by its code point. -/
theorem escape?_cases {c : Char} {cs : List Char} (h : escape? c = some cs) :
    (∃ x, cs = ['\\', x] ∧ Quoted.escape? x = some c) ∨
    ∃ a b d e, cs = ['\\', 'u', a, b, d, e] ∧ Quoted.scalar? [a, b, d, e] = some c := by
  have hspell : ∀ n < 128, (fourDigits n).length = 4 ∧
      Quoted.scalar? (fourDigits n) = some (Char.ofNat n) := by decide +kernel
  unfold escape? at h
  split_ifs at h with h8 ht hn hc hr hb he
  case pos =>
    cases h
    exact .inl ⟨'b', rfl, congrArg some h8.symm⟩
  case pos =>
    cases h
    exact .inl ⟨'t', rfl, congrArg some ht.symm⟩
  case pos =>
    cases h
    exact .inl ⟨'n', rfl, congrArg some hn.symm⟩
  case pos =>
    cases h
    exact .inl ⟨'f', rfl, congrArg some hc.symm⟩
  case pos =>
    cases h
    exact .inl ⟨'r', rfl, congrArg some hr.symm⟩
  case pos =>
    cases h
    exact .inl ⟨'\\', rfl, congrArg some hb.symm⟩
  case pos =>
    have hlt : c.toNat < 128 := by
      simp only [Style.needsEscape, Bool.or_eq_true, Bool.and_eq_true, decide_eq_true_eq] at he
      rcases he with he | rfl
      · omega
      · decide
    obtain ⟨hlen, hs⟩ := hspell c.toNat hlt
    rw [Char.ofNat_toNat] at hs
    cases h
    match hd : fourDigits c.toNat, hlen with
    | [a, b, d, e], _ => exact .inr ⟨a, b, d, e, rfl, hd ▸ hs⟩

namespace Quoted

/-! ## One line -/

theorem basic_letter {x y : Char} (hx : escape? x = some y) (rest : List Char) :
    basic ('\\' :: x :: rest) = cons y (basic rest) := by
  unfold escape? at hx
  split at hx <;> cases hx <;> simp [basic, escape?]

theorem basic_plain {c : Char} (hq : c ≠ '"') (hc : Toml.escape? c = none) (rest : List Char) :
    basic (c :: rest) = cons c (basic rest) := by
  have hcontrol := isControl_of_escape? hc
  have hb := ne_backslash_of_escape? hc
  rw [basic.eq_def]
  split <;> simp_all

theorem basic_escape {c : Char} {cs : List Char} (h : Toml.escape? c = some cs)
    (rest : List Char) : basic (cs ++ rest) = cons c (basic rest) := by
  rcases escape?_cases h with ⟨x, rfl, hx⟩ | ⟨a, b, d, e, rfl, hs⟩
  · exact basic_letter hx rest
  · simp only [List.cons_append, List.nil_append, basic, hs]

/-- A text with escapes is read back. -/
theorem basic_escaped (cs : List Char) (quotes : Nat) (rest : List Char) :
    basic (escaped false quotes cs ++ '"' :: rest) = .ok (cs, rest) := by
  induction cs generalizing quotes with
  | nil => simp [escaped, basic, done]
  | cons c cs ih =>
    by_cases hq : c = '"'
    · subst hq
      have hread := basic_letter (x := '"') rfl (escaped false 0 cs ++ '"' :: rest)
      simp only [escaped, if_true, Bool.false_and, Bool.false_eq_true, if_false, List.cons_append,
        hread, ih]
      rfl
    · simp only [escaped, if_neg hq, Bool.false_and, Bool.false_eq_true, if_false]
      cases hc : Toml.escape? c with
      | some es =>
        simp only [List.append_assoc, basic_escape hc, ih]
        rfl
      | none =>
        simp only [List.cons_append, basic_plain hq hc, ih]
        rfl

/-- A text without single quotes is read back from between them. -/
theorem literal_self {cs : List Char} (hq : '\'' ∉ cs) (hc : ∀ c ∈ cs, isControl c = false)
    (rest : List Char) : literal (cs ++ '\'' :: rest) = .ok (cs, rest) := by
  induction cs with
  | nil => simp [literal, done]
  | cons c cs ih =>
    simp only [List.mem_cons, not_or] at hq
    have hcontrol := hc c (List.mem_cons_self ..)
    have hrest := ih hq.2 fun c' hc' => hc c' (List.mem_cons_of_mem c hc')
    have hne : c ≠ '\'' := Ne.symm hq.1
    simp only [List.cons_append, literal, hcontrol, hrest]
    rfl

/-! ## Several lines -/

theorem basicLines_letter {x y : Char} (hx : escape? x = some y) (rest : List Char) :
    basicLines false ('\\' :: x :: rest) = cons y (basicLines false rest) := by
  unfold escape? at hx
  split at hx <;> cases hx <;> simp [basicLines, escape?]

theorem basicLines_escape {c : Char} {cs : List Char} (h : Toml.escape? c = some cs)
    (rest : List Char) : basicLines false (cs ++ rest) = cons c (basicLines false rest) := by
  rcases escape?_cases h with ⟨x, rfl, hx⟩ | ⟨a, b, d, e, rfl, hs⟩
  · exact basicLines_letter hx rest
  · simp only [List.cons_append, List.nil_append, basicLines, hs]

theorem basicLines_plain {c : Char} (hq : c ≠ '"') (hc : c = '\n' ∨ Toml.escape? c = none)
    (rest : List Char) : basicLines false (c :: rest) = cons c (basicLines false rest) := by
  have hb : c ≠ '\\' := by
    rintro rfl
    rcases hc with hc | hc <;> cases hc
  have hr : c ≠ '\r' := by
    rintro rfl
    rcases hc with hc | hc <;> cases hc
  have hcontrol : c = '\n' ∨ isControl c = false := hc.imp_right isControl_of_escape?
  rw [basicLines.eq_def]
  split <;> simp_all [blank]

/-- One more quote in front of a text that does not start with two is read with it: what follows the
quote is another character, another quote, or the quotes at the end. -/
theorem basicLines_quote {text cs rest : List Char} (htext : ∀ t, text ≠ '"' :: '"' :: t)
    (hread : basicLines false (text ++ '"' :: '"' :: '"' :: rest) = .ok (cs, rest))
    (hrest : ∀ t, rest ≠ '"' :: t) :
    basicLines false ('"' :: (text ++ '"' :: '"' :: '"' :: rest)) = .ok ('"' :: cs, rest) := by
  match text with
  | [] =>
    have hend : basicLines false ('"' :: '"' :: '"' :: rest) = .ok ([], rest) := by
      simp [basicLines, done, hrest]
    cases hend.symm.trans hread
    simp [basicLines]
  | x :: text =>
    by_cases hx : x = '"'
    · subst hx
      match text with
      | [] =>
        have hend : basicLines false ('"' :: '"' :: '"' :: '"' :: rest) = .ok (['"'], rest) := by
          simp [basicLines]
        cases hend.symm.trans hread
        simp [basicLines]
      | y :: text =>
        have hy : y ≠ '"' := by
          rintro rfl
          exact htext text rfl
        have hquote (tail : List Char) : basicLines false ('"' :: '"' :: y :: tail) =
            cons '"' (basicLines false ('"' :: y :: tail)) := by
          simp [basicLines, hy, isControl]
        simp only [List.cons_append, hquote] at hread ⊢
        rw [hread]
        rfl
    · have hquote (tail : List Char) : basicLines false ('"' :: x :: tail) =
          cons '"' (basicLines false (x :: tail)) := by
        simp [basicLines, hx, isControl]
      simp only [List.cons_append, hquote] at hread ⊢
      rw [hread]
      rfl

/-- What is written for a character starts with a quote only where a quote may stand for itself, and
with a line break only where there is one. -/
theorem exists_escaped_cons (lines : Bool) (quotes : Nat) (c : Char)
    (h : c ≠ '"' ∨ lines = false ∨ 2 ≤ quotes) (cs : List Char) :
    ∃ x tail, escaped lines quotes (c :: cs) = x :: tail ∧ x ≠ '"' ∧ x ≠ '\r' ∧
      (x = '\n' → c = '\n') := by
  have hb : '\\' = '\n' → c = '\n' := fun h => absurd h (by decide)
  by_cases hq : c = '"'
  · have hlines : (lines && decide (quotes < 2)) = false := by
      rcases h with h | rfl | h
      · exact absurd hq h
      · rfl
      · simp [Nat.not_lt.mpr h]
    rw [escaped, if_pos hq, hlines]
    exact ⟨'\\', _, rfl, by decide, by decide, hb⟩
  · rw [escaped, if_neg hq]
    split_ifs with hn
    · simp only [Bool.and_eq_true, decide_eq_true_eq] at hn
      exact ⟨'\n', _, rfl, by decide, by decide, fun _ => hn.2⟩
    · cases hc : Toml.escape? c with
      | none =>
        refine ⟨c, _, rfl, hq, ?_, id⟩
        rintro rfl
        cases hc
      | some es =>
        rcases escape?_cases hc with ⟨x, rfl, -⟩ | ⟨a, b, d, e, rfl, -⟩
        · exact ⟨'\\', _, rfl, by decide, by decide, hb⟩
        · exact ⟨'\\', _, rfl, by decide, by decide, hb⟩

/-- Behind a quote that stands for itself, no two quotes do: a third one in a row is escaped. -/
theorem escaped_ne_quotes (quotes : Nat) (cs t : List Char) :
    escaped true (quotes + 1) cs ≠ '"' :: '"' :: t := by
  intro h
  match cs with
  | [] => cases h
  | c :: cs =>
    by_cases hone : c ≠ '"' ∨ 2 ≤ quotes + 1
    · obtain ⟨x, tail, hx, hxq, -⟩ :=
        exists_escaped_cons true (quotes + 1) c (hone.imp_right .inr) cs
      exact hxq (List.cons.inj (hx.symm.trans h)).1
    · simp only [ne_eq, not_or, not_not, Nat.not_le] at hone
      obtain ⟨rfl, hlt⟩ := hone
      have hsecond : escaped true (quotes + 1) ('"' :: cs) =
          '"' :: escaped true (quotes + 2) cs := by
        simp [escaped, hlt]
      have htail := (List.cons.inj (hsecond.symm.trans h)).2
      match cs with
      | [] => cases htail
      | c :: cs =>
        obtain ⟨x, tail, hx, hxq, -⟩ :=
          exists_escaped_cons true (quotes + 2) c (.inr (.inr (by omega))) cs
        exact hxq (List.cons.inj (hx.symm.trans htail)).1

/-- A text that goes over several lines is read back from between three quotes. -/
theorem basicLines_escaped (cs : List Char) (quotes : Nat) {rest : List Char}
    (hrest : rest.head? ≠ some '"') :
    basicLines false (escaped true quotes cs ++ '"' :: '"' :: '"' :: rest) = .ok (cs, rest) := by
  have hne (t : List Char) : rest ≠ '"' :: t := by
    rintro rfl
    exact hrest rfl
  -- The number of quotes just written decides whether the next one is escaped.
  induction cs generalizing quotes with
  | nil => simp [escaped, basicLines, done, hne]
  | cons c cs ih =>
    by_cases hq : c = '"'
    · subst hq
      by_cases hraw : quotes < 2
      · have hfirst : escaped true quotes ('"' :: cs) = '"' :: escaped true (quotes + 1) cs := by
          simp [escaped, hraw]
        rw [hfirst]
        exact basicLines_quote (escaped_ne_quotes quotes cs) (ih (quotes + 1)) hne
      · have hread := basicLines_letter (x := '"') rfl
          (escaped true 0 cs ++ '"' :: '"' :: '"' :: rest)
        simp only [escaped, hraw, decide_false, Bool.and_false, Bool.false_eq_true, if_true,
          if_false, List.cons_append, hread, ih]
        rfl
    · simp only [escaped, if_neg hq, Bool.true_and]
      by_cases hn : c = '\n'
      · subst hn
        simp only [decide_true, if_true, List.cons_append, basicLines_plain hq (.inl rfl), ih]
        rfl
      · cases hc : Toml.escape? c with
        | some es =>
          simp only [decide_eq_true_eq, if_neg hn, List.append_assoc, basicLines_escape hc, ih]
          rfl
        | none =>
          simp only [decide_eq_true_eq, if_neg hn, List.cons_append, basicLines_plain hq (.inr hc),
            ih]
          rfl

theorem literalLines_plain {c : Char} (hq : c ≠ '\'') (hc : c = '\n' ∨ isControl c = false)
    (rest : List Char) : literalLines (c :: rest) = cons c (literalLines rest) := by
  have hr : isControl '\r' = true := rfl
  rw [literalLines.eq_def]
  split <;> simp_all

theorem le_longestRun (q : Char) (current : Nat) (cs : List Char) :
    current ≤ Style.longestRun q current cs := by
  induction cs generalizing current with
  | nil => exact Nat.le_refl _
  | cons c cs ih =>
    rw [Style.longestRun]
    split
    · exact Nat.le_trans (Nat.le_succ _) (ih _)
    · exact Nat.le_max_left ..

theorem literalLines_quote {text cs rest : List Char} (htext : ∀ t, text ≠ '\'' :: '\'' :: t)
    (hread : literalLines (text ++ '\'' :: '\'' :: '\'' :: rest) = .ok (cs, rest))
    (hrest : ∀ t, rest ≠ '\'' :: t) :
    literalLines ('\'' :: (text ++ '\'' :: '\'' :: '\'' :: rest)) = .ok ('\'' :: cs, rest) := by
  match text with
  | [] =>
    have hend : literalLines ('\'' :: '\'' :: '\'' :: rest) = .ok ([], rest) := by
      simp [literalLines, done, hrest]
    cases hend.symm.trans hread
    simp [literalLines]
  | x :: text =>
    by_cases hx : x = '\''
    · subst hx
      match text with
      | [] =>
        have hend : literalLines ('\'' :: '\'' :: '\'' :: '\'' :: rest) = .ok (['\''], rest) := by
          simp [literalLines]
        cases hend.symm.trans hread
        simp [literalLines]
      | y :: text =>
        have hy : y ≠ '\'' := by
          rintro rfl
          exact htext text rfl
        have hquote (tail : List Char) : literalLines ('\'' :: '\'' :: y :: tail) =
            cons '\'' (literalLines ('\'' :: y :: tail)) := by
          simp [literalLines, hy, isControl]
        simp only [List.cons_append, hquote] at hread ⊢
        rw [hread]
        rfl
    · have hquote (tail : List Char) : literalLines ('\'' :: x :: tail) =
          cons '\'' (literalLines (x :: tail)) := by
        simp [literalLines, hx, isControl]
      simp only [List.cons_append, hquote] at hread ⊢
      rw [hread]
      rfl

/-- Behind a quote of a text without three in a row, no two quotes stand. -/
theorem ne_quotes_of_longestRun {cs : List Char} {quotes : Nat}
    (hrun : Style.longestRun '\'' (quotes + 1) cs ≤ 2) (t : List Char) : cs ≠ '\'' :: '\'' :: t := by
  rintro rfl
  rw [Style.longestRun, if_pos rfl, Style.longestRun, if_pos rfl] at hrun
  have hle := le_longestRun '\'' (quotes + 1 + 1 + 1) t
  omega

/-- A text without three single quotes in a row is read back from between three of them. -/
theorem literalLines_self {cs : List Char} {quotes : Nat}
    (hrun : Style.longestRun '\'' quotes cs ≤ 2)
    (hc : ∀ c ∈ cs, c = '\n' ∨ isControl c = false) {rest : List Char}
    (hrest : rest.head? ≠ some '\'') :
    literalLines (cs ++ '\'' :: '\'' :: '\'' :: rest) = .ok (cs, rest) := by
  have hne (t : List Char) : rest ≠ '\'' :: t := by
    rintro rfl
    exact hrest rfl
  induction cs generalizing quotes with
  | nil => simp [literalLines, done, hne]
  | cons c cs ih =>
    have hcs : ∀ c ∈ cs, c = '\n' ∨ isControl c = false := fun c' hc' =>
      hc c' (List.mem_cons_of_mem c hc')
    by_cases hq : c = '\''
    · subst hq
      rw [Style.longestRun, if_pos rfl] at hrun
      exact literalLines_quote (ne_quotes_of_longestRun hrun) (ih hrun hcs) hne
    · rw [Style.longestRun, if_neg hq] at hrun
      rw [List.cons_append, literalLines_plain hq (hc c (List.mem_cons_self ..)),
        ih (Nat.le_trans (Nat.le_max_right ..) hrun) hcs]
      rfl

/-! ## Any style -/

theorem readLine_basic (cs rest : List Char) :
    readLine (Style.basic.write cs ++ rest) = .ok (cs, rest) := by
  rw [Style.write, List.append_assoc, List.cons_append]
  exact basic_escaped cs 0 rest

theorem readLine_literal {cs : List Char} (hq : '\'' ∉ cs) (hc : ∀ c ∈ cs, isControl c = false)
    (rest : List Char) : readLine (Style.literal.write cs ++ rest) = .ok (cs, rest) := by
  rw [Style.write, List.append_assoc, List.cons_append]
  exact literal_self hq hc rest

/-- A text that does not start with three quotes of a kind is on one line. -/
theorem read_eq_readLine {cs : List Char} (hd : ∀ t, cs ≠ '"' :: '"' :: '"' :: t)
    (hs : ∀ t, cs ≠ '\'' :: '\'' :: '\'' :: t) : read cs = readLine cs := by
  rw [read.eq_def]
  split
  · exact absurd rfl (hd _)
  · exact absurd rfl (hs _)
  · rfl

theorem read_basic (cs : List Char) {rest : List Char} (hrest : rest.head? ≠ some '"') :
    read (Style.basic.write cs ++ rest) = .ok (cs, rest) := by
  rw [← readLine_basic cs rest]
  have hwrite : Style.basic.write cs ++ rest = '"' :: (escaped false 0 cs ++ '"' :: rest) := by
    simp [Style.write]
  rw [hwrite]
  refine read_eq_readLine (fun t h => ?_) (fun t h => absurd (List.cons.inj h).1 (by decide))
  match cs with
  | [] =>
    simp only [escaped, List.nil_append, List.cons.injEq, true_and] at h
    exact hrest (h ▸ rfl)
  | c :: cs =>
    obtain ⟨x, tail, hx, hq, -⟩ := exists_escaped_cons false 0 c (.inr (.inl rfl)) cs
    rw [hx] at h
    exact hq (List.cons.inj (List.cons.inj h).2).1

theorem read_literal {cs : List Char} (hq : '\'' ∉ cs) (hc : ∀ c ∈ cs, isControl c = false)
    {rest : List Char} (hrest : rest.head? ≠ some '\'') :
    read (Style.literal.write cs ++ rest) = .ok (cs, rest) := by
  rw [← readLine_literal hq hc rest]
  have hwrite : Style.literal.write cs ++ rest = '\'' :: (cs ++ '\'' :: rest) := by
    simp [Style.write]
  rw [hwrite]
  refine read_eq_readLine (fun t h => absurd (List.cons.inj h).1 (by decide)) (fun t h => ?_)
  match cs with
  | [] =>
    simp only [List.nil_append, List.cons.injEq, true_and] at h
    exact hrest (h ▸ rfl)
  | c :: cs =>
    have hc : c = '\'' := (List.cons.inj (List.cons.inj h).2).1
    exact hq (hc ▸ List.mem_cons_self ..)

/-- The line break behind the quotes that open a text is not part of it. -/
theorem skipBreak_opening {cs text : List Char}
    (h : '\n' ∉ cs → ∀ t, text ≠ '\n' :: t ∧ text ≠ '\r' :: t) :
    skipBreak (opening cs ++ text) = text := by
  by_cases hn : '\n' ∈ cs
  · simp [opening, hn, skipBreak]
  · have hopening : opening cs = [] := by simp [opening, hn]
    rw [hopening, List.nil_append, skipBreak.eq_def]
    split
    · exact absurd rfl (h hn _).1
    · exact absurd rfl (h hn _).2
    · rfl

theorem read_basicLines (cs : List Char) {rest : List Char} (hrest : rest.head? ≠ some '"') :
    read (Style.basicLines.write cs ++ rest) = .ok (cs, rest) := by
  have hwrite : Style.basicLines.write cs ++ rest = '"' :: '"' :: '"' ::
      (opening cs ++ (escaped true 0 cs ++ '"' :: '"' :: '"' :: rest)) := by
    simp [Style.write]
  rw [hwrite, read, skipBreak_opening, basicLines_escaped cs 0 hrest]
  intro hn t
  match cs with
  | [] => simp [escaped]
  | c :: cs =>
    by_cases hq : c = '"'
    · subst hq
      simp [escaped]
    · obtain ⟨x, tail, hx, -, hr, hbreak⟩ := exists_escaped_cons true 0 c (.inl hq) cs
      have hxn : x ≠ '\n' := fun he => hn (hbreak he ▸ List.mem_cons_self ..)
      rw [hx]
      simp [hxn, hr]

theorem read_literalLines {cs : List Char} (hrun : Style.longestRun '\'' 0 cs ≤ 2)
    (hc : ∀ c ∈ cs, c = '\n' ∨ isControl c = false) {rest : List Char}
    (hrest : rest.head? ≠ some '\'') :
    read (Style.literalLines.write cs ++ rest) = .ok (cs, rest) := by
  have hwrite : Style.literalLines.write cs ++ rest = '\'' :: '\'' :: '\'' ::
      (opening cs ++ (cs ++ '\'' :: '\'' :: '\'' :: rest)) := by
    simp [Style.write]
  rw [hwrite, read, skipBreak_opening, literalLines_self hrun hc hrest]
  intro hn t
  match cs with
  | [] => simp
  | c :: cs =>
    have hcn : c ≠ '\n' := fun he => hn (he ▸ List.mem_cons_self ..)
    have hcr : c ≠ '\r' := by
      rintro rfl
      rcases hc '\r' (List.mem_cons_self ..) with h | h <;> cases h
    simp [hcn, hcr]

/-- What is not escaped stands for itself. -/
theorem eq_break_or_not_isControl {cs : List Char} (h : cs.any Style.needsEscape = false) :
    ∀ c ∈ cs, c = '\n' ∨ isControl c = false := by
  intro c hc
  by_contra hno
  simp only [not_or, Bool.not_eq_false] at hno
  have hescape := needsEscape_of_isControl hno.2 hno.1
  exact absurd (List.any_eq_false.mp h c hc) (by simp [hescape])

theorem not_isControl {cs : List Char} (h : cs.any Style.needsEscape = false)
    (hn : '\n' ∉ cs) : ∀ c ∈ cs, isControl c = false := fun c hc =>
  (eq_break_or_not_isControl h c hc).resolve_left fun he => hn (he ▸ hc)

/-- A value is read back, whatever it is. -/
theorem read_write (cs rest : List Char) (hd : rest.head? ≠ some '"')
    (hs : rest.head? ≠ some '\'') :
    read ((Style.ofValue cs).write cs ++ rest) = .ok (cs, rest) := by
  unfold Style.ofValue
  simp only [Bool.and_eq_true, Bool.not_eq_true', List.contains_eq_mem, decide_eq_false_iff_not,
    decide_eq_true_eq]
  split_ifs with hbasic hliteral hbasicLines hliteralLines
  · exact read_basic cs hd
  · obtain ⟨⟨hescape, hn⟩, hq⟩ := hliteral
    exact read_literal hq (not_isControl hescape hn) hs
  · exact read_basicLines cs hd
  · exact read_literalLines hliteralLines.2 (eq_break_or_not_isControl hliteralLines.1) hs
  · exact read_basicLines cs hd
  · exact read_basic cs hd

/-- A key that needs quotes is read back, whatever follows it. -/
theorem readLine_write (cs rest : List Char) :
    readLine ((Style.ofKey cs).write cs ++ rest) = .ok (cs, rest) := by
  unfold Style.ofKey
  simp only [Bool.and_eq_true, Bool.not_eq_true', Bool.or_eq_false_iff, List.contains_eq_mem,
    decide_eq_false_iff_not]
  split_ifs with hbasic hliteral
  · exact readLine_basic cs rest
  · obtain ⟨⟨hescape, hn⟩, hq⟩ := hliteral
    exact readLine_literal hq (not_isControl hescape hn) rest
  · exact readLine_basic cs rest

end Quoted
end LiveQuery.Toml
