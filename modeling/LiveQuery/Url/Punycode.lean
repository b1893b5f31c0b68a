/-!
# Names of hosts in ASCII

A label of a host name that has other characters than ASCII ones is written with these: first the
ASCII characters of the label, then, as numbers of variable length in base 36, where the others go.
The others are taken in ascending order, and each number counts the places passed over since the
last one.
-/

namespace LiveQuery.Url.Punycode

/-- The digit for a value: letters first. -/
def digit (n : Nat) : Char :=
  if n < 26 then Char.ofNat ('a'.toNat + n) else Char.ofNat ('0'.toNat + (n - 26))

/-- The value from which on a digit at position `k` says that more follow. -/
def threshold (k bias : Nat) : Nat :=
  if k ≤ bias then 1 else if bias + 26 ≤ k then 26 else k - bias

theorem threshold_bounds (k bias : Nat) : 1 ≤ threshold k bias ∧ threshold k bias ≤ 26 := by
  unfold threshold
  repeat' split
  all_goals omega

/-- A number of places in digits. -/
def digits (bias k n : Nat) : List Char :=
  let t := threshold k bias
  if n < t then [digit n]
  else digit (t + (n - t) % (36 - t)) :: digits bias (k + 36) ((n - t) / (36 - t))
  termination_by n
  decreasing_by
    have := threshold_bounds k bias
    calc (n - threshold k bias) / (36 - threshold k bias)
        ≤ n - threshold k bias := Nat.div_le_self _ _
      _ < n := by omega

/-- How often a number of places is cut down, and to what. -/
def shrink (n k : Nat) : Nat × Nat :=
  if 455 < n then shrink (n / 35) (k + 36) else (n, k)
  termination_by n
  decreasing_by exact Nat.div_lt_self (by omega) (by omega)

/-- The bias after a number of places has been written, the label having got a number of
characters. -/
def adapt (n length : Nat) (first : Bool) : Nat :=
  let n := if first then n / 700 else n / 2
  let (n, k) := shrink (n + n / length) 0
  k + 36 * n / (n + 38)

/-- What has been written, the places passed over since, the bias, and how many characters the label
has got. -/
structure State where
  written : List Char
  passed : Nat
  bias : Nat
  length : Nat

/-- Passes over a character of the label, or puts it in its place if its turn has come. -/
def pass (ascii code : Nat) (s : State) (c : Char) : State :=
  if c.toNat < code then { s with passed := s.passed + 1 }
  else if c.toNat = code then
    { written := s.written ++ digits s.bias 36 s.passed
      passed := 0
      bias := adapt s.passed (s.length + 1) (s.length = ascii)
      length := s.length + 1 }
  else s

/-- Puts in every character with one of the code points, which ascend; `next` is the least one that
has not been looked at. -/
def putAll (label : List Char) (ascii : Nat) : List Nat → Nat → State → State
  | [], _, s => s
  | code :: rest, next, s =>
    let s := label.foldl (pass ascii code)
      { s with passed := s.passed + (code - next) * (s.length + 1) }
    putAll label ascii rest (code + 1) { s with passed := s.passed + 1 }

/-- A label in ASCII. -/
def encode (label : List Char) : List Char :=
  let plain := label.filter fun c => c.toNat < 0x80
  let codes := ((label.map Char.toNat).filter (0x80 ≤ ·)).mergeSort.eraseDups
  if codes.isEmpty then label
  else
    let s := putAll label plain.length codes 0x80 ⟨[], 0, 72, plain.length⟩
    ['x', 'n', '-', '-'] ++ plain ++ (if plain.isEmpty then [] else ['-']) ++ s.written

end LiveQuery.Url.Punycode
