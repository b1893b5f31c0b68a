import LiveQuery.Proofs.Json.Printing

/-!
# Values on one line

A value that is printed compactly stands on one line, whatever it holds: strings and keys have their
controls escaped, and nothing else that is written is a control (`printable_compactChars`). This
does not depend on the numbers, which may be binary ones.
-/

namespace LiveQuery

/-- No character is a control, and so none is a line break. -/
def Printable (cs : List Char) : Prop := ∀ c ∈ cs, 0x20 ≤ c.toNat

instance (cs : List Char) : Decidable (Printable cs) := List.decidableBAll _ cs

namespace Printable

variable {c : Char} {cs ds : List Char}

theorem nil : Printable [] := fun _ hc => absurd hc List.not_mem_nil

theorem cons (hc : 0x20 ≤ c.toNat) (hcs : Printable cs) : Printable (c :: cs) :=
  List.forall_mem_cons.mpr ⟨hc, hcs⟩

theorem append (hcs : Printable cs) (hds : Printable ds) : Printable (cs ++ ds) := by
  intro c hc
  rcases List.mem_append.mp hc with hc | hc
  · exact hcs c hc
  · exact hds c hc

/-- Characters that are all taken from printable ones. -/
theorem subset (h : Printable cs) (hsub : ds ⊆ cs) : Printable ds := fun c hc => h c (hsub hc)

theorem replicate (n : Nat) (hc : 0x20 ≤ c.toNat) : Printable (List.replicate n c) := by
  intro d hd
  rw [List.eq_of_mem_replicate hd]
  exact hc

theorem flatMap {f : Char → List Char} (h : ∀ c ∈ cs, Printable (f c)) :
    Printable (cs.flatMap f) := by
  intro d hd
  obtain ⟨c, hc, hd⟩ := List.mem_flatMap.mp hd
  exact h c hc d hd

end Printable

/-! ## Numbers -/

theorem printable_toDigits (n : Nat) : Printable (Nat.toDigits 10 n) := by
  intro c hc
  have hdigit := Char.isDigit_iff_toNat.mp (Text.isDigit_of_mem_toDigits c hc)
  exact Nat.le_trans (by decide) hdigit.1

namespace Binary64

theorem printable_digitsText (style : Notation64) {digits : List Char} (h : Printable digits)
    (p : Int) : Printable (digitsText style digits p) := by
  have hzeros : ∀ n, Printable (List.replicate n '0') := fun n => .replicate n (by decide)
  have hrest : ∀ n, Printable (digits.drop n) := fun n => h.subset (List.drop_subset n digits)
  unfold digitsText
  by_cases hplain : style.plainFrom ≤ p ∧ p ≤ style.plainTo
  · rw [if_pos hplain]
    by_cases hp : 0 ≤ p
    · rw [if_pos hp]
      refine .append ?_ (.cons (by decide) ?_)
      · exact (h.append (hzeros _)).subset (List.take_subset ..)
      · split
        · decide
        · exact hrest _
    · rw [if_neg hp]
      exact .append (.cons (by decide) (.cons (by decide) (hzeros _))) h
  · rw [if_neg hplain]
    refine .append (.append (.append (h.subset (List.take_subset ..)) ?_) ?_) (printable_toDigits _)
    · split
      · exact .nil
      · exact .cons (by decide) (hrest 1)
    · split
      · decide
      · decide

theorem printable_textIn (style : Notation64) (x : Binary64) :
    Printable (x.textIn style).toList := by
  have hsign : Printable (if x.negative then ['-'] else []) := by
    cases x.negative <;> decide
  unfold textIn
  by_cases hzero : x.significand = 0
  · simp only [if_pos hzero, String.toList_ofList]
    exact hsign.append (by decide)
  · simp only [if_neg hzero, String.toList_ofList]
    exact hsign.append (printable_digitsText style (printable_toDigits _) _)

end Binary64

theorem Number.printable_text (n : Number) : Printable n.text.toList := by
  cases n with
  | int i =>
    cases i with
    | ofNat n =>
      rw [Json.toList_text_ofNat]
      exact printable_toDigits n
    | negSucc n =>
      rw [Json.toList_text_negSucc]
      exact .cons (by decide) (printable_toDigits (n + 1))
  | real x => exact Binary64.printable_textIn Binary64.jsonNotation x

/-! ## Strings -/

namespace Json

theorem printable_hexDigit : ∀ n < 16, 0x20 ≤ (hexDigit n).toNat := by decide

/-- A control is escaped with characters that are none, and every other one may stand as it is. -/
theorem printable_escapeChar (c : Char) : Printable (escapeChar c) := by
  unfold escapeChar
  split_ifs with _ _ _ _ _ _ _ hcontrol
  -- The first seven have an escape of two characters.
  iterate 7 decide
  · have hmark : Printable ['\\', 'u', '0', '0'] := by decide
    have hhigh := printable_hexDigit (c.toNat / 16) (by omega)
    have hlow := printable_hexDigit (c.toNat % 16) (by omega)
    exact hmark.append (.cons hhigh (.cons hlow .nil))
  · exact .cons (Nat.not_lt.mp hcontrol) .nil

theorem printable_quote (s : String) : Printable (quote s) := by
  refine .cons (by decide) (.append (.flatMap fun c _ => ?_) (by decide))
  exact printable_escapeChar c

/-! ## Values -/

mutual
/-- What is printed on one line holds no control. -/
theorem printable_compactChars : ∀ v : Json, Printable v.compactChars
  | null => by decide
  | bool true => by decide
  | bool false => by decide
  | number n => n.printable_text
  | string s => printable_quote s
  | array items => .append (.cons (by decide) (printable_compactItems items)) (by decide)
  | object members => .append (.cons (by decide) (printable_compactMembers members)) (by decide)

theorem printable_compactItems : ∀ items : List Json, Printable (compactItems items)
  | [] => .nil
  | [v] => printable_compactChars v
  | v :: w :: rest => by
    have hrest := printable_compactItems (w :: rest)
    exact .append (printable_compactChars v) (.cons (by decide) hrest)

theorem printable_compactMembers :
    ∀ members : List (String × Json), Printable (compactMembers members)
  | [] => .nil
  | [(k, v)] => .append (printable_quote k) (.cons (by decide) (printable_compactChars v))
  | (k, v) :: m :: rest => by
    have hrest := printable_compactMembers (m :: rest)
    have hmember : Printable (quote k ++ ':' :: compactChars v) :=
      .append (printable_quote k) (.cons (by decide) (printable_compactChars v))
    exact .append hmember (.cons (by decide) hrest)
end

end Json
end LiveQuery
