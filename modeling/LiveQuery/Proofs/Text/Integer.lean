import Mathlib.Data.List.Basic
import LiveQuery.Text.Integer

/-!
# Whole numbers read back

A whole number is written with its decimal digits, without a zero in front. A reader that appends
digit after digit comes to the number again, as long as it is within its bound.
-/

namespace LiveQuery.Text

theorem isDigit_of_mem_toDigits {n : Nat} : ∀ c ∈ Nat.toDigits 10 n, c.isDigit = true := fun _ hc =>
  Nat.isDigit_of_mem_toDigits (by decide) (by decide) hc

theorem toDigits_ne_nil (n : Nat) : Nat.toDigits 10 n ≠ [] :=
  List.length_pos_iff.mp Nat.length_toDigits_pos

theorem head?_toDigits_ne_zero {n : Nat} (hn : 0 < n) : (Nat.toDigits 10 n).head? ≠ some '0' := by
  induction n using Nat.strongRecOn with
  | ind n ih =>
    by_cases hlt : n < 10
    · rw [Nat.toDigits_of_lt_base hlt]
      have hdigit : ∀ d < 10, 0 < d → [Nat.digitChar d].head? ≠ some '0' := by decide
      exact hdigit n hlt hn
    · -- The number is that of all digits but the last, and the last digit.
      have hsplit : Nat.toDigits 10 (n / 10) ++ Nat.toDigits 10 (n % 10) = Nat.toDigits 10 n := by
        rw [Nat.toDigits_append_toDigits (by decide) (by omega) (by omega), Nat.div_add_mod]
      rw [← hsplit, List.head?_append_of_ne_nil _ (toDigits_ne_nil (n / 10))]
      exact ih (n / 10) (by omega) (by omega)

theorem decimal_toDigits (n : Nat) : decimal (Nat.toDigits 10 n) = n := by
  have hfold := Nat.ofDigitChars_toDigits (b := 10) (n := n) (by decide) (by decide)
  rw [Nat.ofDigitChars_eq_foldl] at hfold
  simp only [decimal, Nat.mul_comm _ 10]
  exact hfold

/-! ## Appending digits -/

/-- One more digit. -/
def appendDigit (n : Nat) (c : Char) : Nat := n * 10 + (c.toNat - '0'.toNat)

theorem le_foldl_appendDigit (n : Nat) (ds : List Char) : n ≤ ds.foldl appendDigit n := by
  induction ds generalizing n with
  | nil => exact Nat.le_refl n
  | cons c ds ih =>
    have hstep : n ≤ appendDigit n c := by
      unfold appendDigit
      omega
    exact Nat.le_trans hstep (ih (appendDigit n c))

/-- Digits are appended one by one, as long as the number stays within the bound. -/
theorem appendDigits_eq_ok {bound : Nat} {excess : IntegerFault} {n : Nat} {ds : List Char}
    (hdigit : ∀ c ∈ ds, c.isDigit = true) (hbound : ds.foldl appendDigit n ≤ bound) :
    appendDigits bound excess n ds = .ok (ds.foldl appendDigit n) := by
  induction ds generalizing n with
  | nil => rfl
  | cons c ds ih =>
    obtain ⟨hc, hds⟩ := List.forall_mem_cons.mp hdigit
    have hle : appendDigit n c ≤ bound :=
      Nat.le_trans (le_foldl_appendDigit (appendDigit n c) ds) hbound
    have hlt : ¬ bound < n * 10 + (c.toNat - '0'.toNat) := Nat.not_lt.mpr hle
    simp only [appendDigits, hc, Bool.not_true, Bool.false_eq_true, if_false, hlt]
    exact ih hds hbound

theorem toList_toString_nat (n : Nat) : (toString n).toList = Nat.toDigits 10 n := Nat.toList_repr

/-- A number within the bound is read back. -/
theorem appendDigits_toDigits {bound n : Nat} {excess : IntegerFault} (hn : n ≤ bound) :
    appendDigits bound excess 0 (Nat.toDigits 10 n) = .ok n := by
  have hfold : (Nat.toDigits 10 n).foldl appendDigit 0 = n := decimal_toDigits n
  rw [appendDigits_eq_ok isDigit_of_mem_toDigits (hfold.symm ▸ hn), hfold]

theorem readNatural_toString {bound n : Nat} (hn : n ≤ bound) :
    readNatural bound (toString n) = .ok n := by
  have happend : appendDigits bound .tooLarge 0 (Nat.toDigits 10 n) = .ok n :=
    appendDigits_toDigits hn
  have hdigit := isDigit_of_mem_toDigits (n := n)
  have hne := toDigits_ne_nil n
  unfold readNatural
  rw [toList_toString_nat]
  generalize Nat.toDigits 10 n = ds at *
  split
  · exact absurd rfl hne
  · exact absurd (hdigit '+' (List.mem_cons_self ..)) (by decide)
  · exact absurd (hdigit '+' (List.mem_cons_self ..)) (by decide)
  · exact happend

theorem readU64_toString {n : Nat} (hn : n < UInt64.size) : readU64 (toString n) = .ok n :=
  readNatural_toString (Nat.le_pred_of_lt hn)

theorem readI64_toString {n : Nat} (hn : n ≤ 0x7FFFFFFFFFFFFFFF) :
    readI64 (toString n) = .ok (n : Int) := by
  have hread := readNatural_toString hn
  have hdigit := isDigit_of_mem_toDigits (n := n)
  unfold readI64
  rw [toList_toString_nat]
  split
  · rename_i h
    exact absurd (hdigit '-' (h ▸ List.mem_cons_self ..)) (by decide)
  · rename_i h
    exact absurd (hdigit '-' (h ▸ List.mem_cons_self ..)) (by decide)
  · rw [hread]
    rfl

end LiveQuery.Text
