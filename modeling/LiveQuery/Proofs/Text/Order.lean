import LiveQuery.Proofs.Text.Glyph

/-!
# The order of texts and of their octets

Texts are compared character by character. Their octets, compared one by one, give the same order
(`Bytes.ofString_lt`): of two characters the greater one has the greater first octet, or they have
equally many octets, of which the first ones are equal and then the greater one has the greater
octet.
-/

namespace LiveQuery

namespace Glyph

/-- The first octet of the character with a code point, as a number. -/
def firstOctet (v : Nat) : Nat :=
  if v ≤ 0x7F then v
  else if v ≤ 0x7FF then v / 64 + 0xC0
  else if v ≤ 0xFFFF then v / 4096 + 0xE0
  else v / 262144 + 0xF0

/-- The octet that carries some of the bits of a code point behind the first one. -/
def tailOctet (v : Nat) : UInt8 := UInt8.ofNat (v % 64 + 128)

/-- The octets behind the first one. -/
def tailOctets (v : Nat) : Bytes :=
  if v ≤ 0x7F then []
  else if v ≤ 0x7FF then [tailOctet v]
  else if v ≤ 0xFFFF then [tailOctet (v / 64), tailOctet v]
  else [tailOctet (v / 4096), tailOctet (v / 64), tailOctet v]

theorem toNat_lt (c : Char) : c.val.toNat < 0x110000 := by
  have hvalid : c.val.toNat < 0xD800 ∨ 0xDFFF < c.val.toNat ∧ c.val.toNat < 0x110000 := c.valid
  omega

theorem utf8EncodeChar_eq (c : Char) :
    String.utf8EncodeChar c =
      UInt8.ofNat (firstOctet c.val.toNat) :: tailOctets c.val.toNat := by
  have hlt := toNat_lt c
  unfold String.utf8EncodeChar
  generalize c.val.toNat = v at *
  simp only [firstOctet, tailOctets]
  split_ifs with h1 h2 h3
  case pos => rfl
  case pos =>
    have hfirst : v / 64 % 32 = v / 64 := by omega
    rw [hfirst]
    rfl
  case pos =>
    have hfirst : v / 4096 % 16 = v / 4096 := by omega
    rw [hfirst]
    rfl
  case neg =>
    have hfirst : v / 262144 % 8 = v / 262144 := by omega
    rw [hfirst]
    rfl

/-- A smaller octet decides, and an equal one leaves it to what follows. -/
theorem octet_cons_lt {m n : Nat} {xs ys : Bytes} (hn : n < 256) (hle : m ≤ n)
    (hrest : m = n → xs < ys) : UInt8.ofNat m :: xs < UInt8.ofNat n :: ys := by
  rw [List.cons_lt_cons_iff]
  rcases Nat.lt_or_eq_of_le hle with hlt | rfl
  · left
    rwa [UInt8.lt_iff_toNat_lt, toNat_ofNat_of_lt (by omega), toNat_ofNat_of_lt hn]
  · exact Or.inr ⟨rfl, hrest rfl⟩

variable {v w : Nat}

theorem tailOctet_cons_lt {xs ys : Bytes} (hle : v % 64 ≤ w % 64)
    (hrest : v % 64 = w % 64 → xs < ys) : tailOctet v :: xs < tailOctet w :: ys :=
  octet_cons_lt (by omega) (by omega) fun heq => hrest (by omega)

theorem firstOctet_lt (hv : v < 0x110000) : firstOctet v < 256 := by
  unfold firstOctet
  split_ifs <;> omega

theorem firstOctet_le (h : v ≤ w) (hw : w < 0x110000) : firstOctet v ≤ firstOctet w := by
  unfold firstOctet
  split_ifs <;> omega

/-- Characters with the same first octet have equally many octets. -/
theorem same_length_of_firstOctet_eq (hv : v < 0x110000) (hw : w < 0x110000)
    (heq : firstOctet v = firstOctet w) :
    (v ≤ 0x7F ∧ w = v) ∨
    (0x7F < v ∧ v ≤ 0x7FF ∧ 0x7F < w ∧ w ≤ 0x7FF ∧ v / 64 = w / 64) ∨
    (0x7FF < v ∧ v ≤ 0xFFFF ∧ 0x7FF < w ∧ w ≤ 0xFFFF ∧ v / 4096 = w / 4096) ∨
    (0xFFFF < v ∧ 0xFFFF < w ∧ v / 262144 = w / 262144) := by
  unfold firstOctet at heq
  split_ifs at heq <;> omega

theorem tailOctets_lt (h : v < w) (hw : w < 0x110000) (heq : firstOctet v = firstOctet w)
    (xs ys : Bytes) : tailOctets v ++ xs < tailOctets w ++ ys := by
  rcases same_length_of_firstOctet_eq (by omega) hw heq with
    ⟨-, rfl⟩ | ⟨h1, h2, h3, h4, hfirst⟩ | ⟨h1, h2, h3, h4, hfirst⟩ | ⟨h1, h2, hfirst⟩
  case inl => exact absurd h (Nat.lt_irrefl _)
  all_goals
    simp (disch := omega) only [tailOctets, if_pos, if_neg, List.cons_append, List.nil_append]
  case inr.inl => exact tailOctet_cons_lt (by omega) fun heq => absurd heq (by omega)
  case inr.inr.inl =>
    exact tailOctet_cons_lt (by omega) fun hsecond =>
      tailOctet_cons_lt (by omega) fun hthird => absurd hthird (by omega)
  case inr.inr.inr =>
    exact tailOctet_cons_lt (by omega) fun hsecond =>
      tailOctet_cons_lt (by omega) fun hthird =>
        tailOctet_cons_lt (by omega) fun hfourth => absurd hfourth (by omega)

/-- The octets of a smaller character come first, whatever follows. -/
theorem utf8EncodeChar_lt {c d : Char} (h : c < d) (xs ys : Bytes) :
    String.utf8EncodeChar c ++ xs < String.utf8EncodeChar d ++ ys := by
  have hd := toNat_lt d
  have hlt : c.val.toNat < d.val.toNat := UInt32.lt_iff_toNat_lt.mp (Char.lt_def.mp h)
  rw [utf8EncodeChar_eq, utf8EncodeChar_eq, List.cons_append, List.cons_append]
  exact octet_cons_lt (firstOctet_lt hd) (firstOctet_le (Nat.le_of_lt hlt) hd)
    fun heq => tailOctets_lt hlt hd heq xs ys

end Glyph

/-- Texts and their octets have the same order. -/
theorem Bytes.ofString_lt {a b : String} (h : a < b) : ofString a < ofString b := by
  have hlex : List.Lex (· < ·) a.toList b.toList := List.lex_lt.mpr h
  unfold ofString
  generalize a.toList = cs at hlex
  generalize b.toList = ds at hlex
  induction hlex with
  | nil =>
    rw [List.flatMap_cons, Glyph.utf8EncodeChar_eq]
    exact List.nil_lt_cons ..
  | cons _ ih =>
    rw [List.flatMap_cons, List.flatMap_cons]
    exact List.append_left_lt ih
  | rel hlt =>
    rw [List.flatMap_cons, List.flatMap_cons]
    exact Glyph.utf8EncodeChar_lt hlt _ _

end LiveQuery
