import LiveQuery.Proofs.Text.Integer
import LiveQuery.Text.Inspect
import LiveQuery.Toml.Word

/-!
# Numbers and truth values read back

A whole number is written in decimal, without a zero in front, and a truth value as its name. Both
are words, and the reader ends a word at the line break behind it.
-/

namespace LiveQuery.Toml

open Text (isDigit_of_mem_toDigits toDigits_ne_nil head?_toDigits_ne_zero decimal_toDigits
  toList_toString_nat)

theorem isWordChar_of_isDigit {c : Char} (h : c.isDigit = true) : isWordChar c = true := by
  simp [isWordChar, Char.isAlphanum, h]

/-- A word ends at the end of its line. -/
theorem takeWord_append_break {word : List Char} (h : ∀ c ∈ word, isWordChar c = true)
    (rest : List Char) : takeWord (word ++ '\n' :: rest) = (word, '\n' :: rest) := by
  have htake : (word ++ '\n' :: rest).takeWhile isWordChar = word := by
    rw [List.takeWhile_append_of_pos h]
    exact List.append_nil word
  have hdrop : (word ++ '\n' :: rest).dropWhile isWordChar = '\n' :: rest := by
    rw [List.dropWhile_append_of_pos h]
    rfl
  simp only [takeWord, htake, hdrop]
  rfl

theorem readWord_append_break {word : List Char} (h : ∀ c ∈ word, isWordChar c = true) {s : Scalar}
    (hs : Scalar.ofWord? word = some s) (rest : List Char) :
    readWord (word ++ '\n' :: rest) = .ok (s, '\n' :: rest) := by
  simp only [readWord, takeWord_append_break h, hs]

/-! ## Whole numbers -/

theorem moreDigits_self {ds : List Char} (h : ∀ c ∈ ds, c.isDigit = true) :
    moreDigits Char.isDigit ds = (ds, []) := by
  induction ds with
  | nil => rfl
  | cons c ds ih =>
    have hc := h c (List.mem_cons_self ..)
    have hds := ih fun c' hc' => h c' (List.mem_cons_of_mem c hc')
    have hne : c ≠ '_' := by
      rintro rfl
      cases hc
    rw [moreDigits.eq_def]
    split <;> simp_all

theorem wholeDigits_self {ds : List Char} (h : ∀ c ∈ ds, c.isDigit = true) (hne : ds ≠ [])
    (hzero : ds.head? = some '0' → ds.length = 1) : wholeDigits ds = some (ds, []) := by
  match ds with
  | [] => exact absurd rfl hne
  | c :: ds =>
    have hc := h c (List.mem_cons_self ..)
    have hds := moreDigits_self fun c' hc' => h c' (List.mem_cons_of_mem c hc')
    have hok : ¬ ((c :: ds).head? = some '0' ∧ (c :: ds).length ≠ 1) := fun hno =>
      hno.2 (hzero hno.1)
    simp only [wholeDigits, someDigits, hc, if_true, hds, Option.bind_eq_bind, Option.bind_some,
      if_neg hok]

theorem wholeDigits_toDigits (n : Nat) :
    wholeDigits (Nat.toDigits 10 n) = some (Nat.toDigits 10 n, []) := by
  refine wholeDigits_self isDigit_of_mem_toDigits (toDigits_ne_nil n) fun hzero => ?_
  rcases Nat.eq_zero_or_pos n with rfl | hn
  · rfl
  · exact absurd hzero (head?_toDigits_ne_zero hn)

theorem integerOf?_toDigits {n : Nat} (hn : n ≤ 0x7FFFFFFFFFFFFFFF) :
    integerOf? (Nat.toDigits 10 n) = some (n : Int) := by
  have hdigits := wholeDigits_toDigits n
  have hdecimal := decimal_toDigits n
  have hdigit := isDigit_of_mem_toDigits (n := n)
  generalize Nat.toDigits 10 n = ds at *
  have hrange : inRange n = some (n : Int) := if_pos ⟨by omega, by omega⟩
  have hsign : readSign ds = (false, ds) := by
    rw [readSign.eq_def]
    split
    · exact absurd (hdigit '-' (List.mem_cons_self ..)) (by decide)
    · exact absurd (hdigit '+' (List.mem_cons_self ..)) (by decide)
    · rfl
  unfold integerOf?
  split
  · exact absurd (hdigit 'x' (by simp)) (by decide)
  · exact absurd (hdigit 'o' (by simp)) (by decide)
  · exact absurd (hdigit 'b' (by simp)) (by decide)
  · simp only [hsign, hdigits, Option.bind_eq_bind, Option.bind_some, hdecimal, Bool.false_eq_true,
      if_false, hrange]

/-- A whole number of 63 bits is read back. -/
theorem readWord_nat {n : Nat} (hn : n ≤ 0x7FFFFFFFFFFFFFFF) (rest : List Char) :
    readWord ((toString n).toList ++ '\n' :: rest) = .ok (.integer n, '\n' :: rest) := by
  have hdigit := isDigit_of_mem_toDigits (n := n)
  rw [toList_toString_nat]
  refine readWord_append_break (fun c hc => isWordChar_of_isDigit (hdigit c hc)) ?_ rest
  have htrue : Nat.toDigits 10 n ≠ ['t', 'r', 'u', 'e'] := fun he =>
    absurd (hdigit 't' (he ▸ List.mem_cons_self ..)) (by decide)
  have hfalse : Nat.toDigits 10 n ≠ ['f', 'a', 'l', 's', 'e'] := fun he =>
    absurd (hdigit 'f' (he ▸ List.mem_cons_self ..)) (by decide)
  simp only [Scalar.ofWord?, if_neg htrue, if_neg hfalse, integerOf?_toDigits hn]

/-- A truth value is read back. -/
theorem readWord_truth (b : Bool) (rest : List Char) :
    readWord ((Text.truth b).toList ++ '\n' :: rest) = .ok (.boolean b, '\n' :: rest) := by
  have hword : ∀ c ∈ (Text.truth b).toList, isWordChar c = true := by
    cases b <;> exact List.all_eq_true.mp rfl
  have hspells : Scalar.ofWord? (Text.truth b).toList = some (.boolean b) := by
    cases b <;> rfl
  exact readWord_append_break hword hspells rest

end LiveQuery.Toml
