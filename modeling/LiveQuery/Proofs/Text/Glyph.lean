import Mathlib.Tactic.SplitIfs
import LiveQuery.Text.Glyph

/-!
# Texts as octets

The octets of a text are cut back into its characters, whatever follows them. So what is written as
a text and read as octets is the same text (`Bytes.toString?_ofString`).
-/

namespace LiveQuery

namespace Glyph

/-- Whether an octet can follow the first one, as a number. -/
def Follows (b : UInt8) : Prop := 0x80 ≤ b.toNat ∧ b.toNat ≤ 0xBF

theorem within_iff {low high b : UInt8} :
    within low high b = true ↔ low.toNat ≤ b.toNat ∧ b.toNat ≤ high.toNat := by
  simp only [within, Bool.and_eq_true, decide_eq_true_eq, UInt8.le_iff_toNat_le]

theorem isTail_of_follows {b : UInt8} (h : Follows b) : isTail b = true := within_iff.mpr h

theorem lead?_eq (b : UInt8) :
    lead? b =
      if 0xC2 ≤ b.toNat ∧ b.toNat ≤ 0xDF then some (1, 0x80, 0xBF)
      else if b.toNat = 0xE0 then some (2, 0xA0, 0xBF)
      else if 0xE1 ≤ b.toNat ∧ b.toNat ≤ 0xEC then some (2, 0x80, 0xBF)
      else if b.toNat = 0xED then some (2, 0x80, 0x9F)
      else if 0xEE ≤ b.toNat ∧ b.toNat ≤ 0xEF then some (2, 0x80, 0xBF)
      else if b.toNat = 0xF0 then some (3, 0x90, 0xBF)
      else if 0xF1 ≤ b.toNat ∧ b.toNat ≤ 0xF3 then some (3, 0x80, 0xBF)
      else if b.toNat = 0xF4 then some (3, 0x80, 0x8F)
      else none := by
  have heq (n : UInt8) : b = n ↔ b.toNat = n.toNat := UInt8.toNat_inj.symm
  simp only [lead?, UInt8.le_iff_toNat_le, heq]
  rfl

theorem not_lt_of_le {a : UInt8} (h : 0x80 ≤ a.toNat) : ¬ a < 0x80 := by
  rw [UInt8.lt_iff_toNat_lt]
  exact Nat.not_lt.mpr h

/-! ## Characters of one to four octets -/

theorem cut_one {a : UInt8} (h : a.toNat < 0x80) (rest : Bytes) :
    cut a rest = (char (Char.ofNat a.toNat), rest) := by
  have hlt : a < 0x80 := UInt8.lt_iff_toNat_lt.mpr h
  unfold cut
  rw [if_pos hlt]

theorem cut_two {a b : UInt8} (ha : 0xC2 ≤ a.toNat ∧ a.toNat ≤ 0xDF) (hb : Follows b)
    (rest : Bytes) : cut a (b :: rest) = (char (join a 32 [b]), rest) := by
  have hlead : lead? a = some (1, 0x80, 0xBF) := by
    rw [lead?_eq, if_pos ha]
  have hwithin : within 0x80 0xBF b = true := within_iff.mpr hb
  have hlt : ¬ a < 0x80 := not_lt_of_le (by omega)
  simp [cut, hlt, hlead, hwithin]

theorem cut_three {a b c : UInt8} (ha : 0xE0 ≤ a.toNat ∧ a.toNat ≤ 0xEF) (hb : Follows b)
    (hc : Follows c) (hlow : a.toNat = 0xE0 → 0xA0 ≤ b.toNat)
    (hhigh : a.toNat = 0xED → b.toNat ≤ 0x9F) (rest : Bytes) :
    cut a (b :: c :: rest) = (char (join a 16 [b, c]), rest) := by
  have hlead : ∃ low high, lead? a = some (2, low, high) ∧ within low high b = true := by
    obtain ⟨hb, hb'⟩ := hb
    rw [lead?_eq]
    split_ifs with h1 h2 h3 h4 h5
    · omega
    · exact ⟨_, _, rfl, within_iff.mpr ⟨hlow h2, hb'⟩⟩
    · exact ⟨_, _, rfl, within_iff.mpr ⟨hb, hb'⟩⟩
    · exact ⟨_, _, rfl, within_iff.mpr ⟨hb, hhigh h4⟩⟩
    · exact ⟨_, _, rfl, within_iff.mpr ⟨hb, hb'⟩⟩
    all_goals omega
  obtain ⟨low, high, hlead, hwithin⟩ := hlead
  have hlt : ¬ a < 0x80 := not_lt_of_le (by omega)
  simp [cut, hlt, hlead, hwithin, isTail_of_follows hc]

theorem cut_four {a b c d : UInt8} (ha : 0xF0 ≤ a.toNat ∧ a.toNat ≤ 0xF4) (hb : Follows b)
    (hc : Follows c) (hd : Follows d) (hlow : a.toNat = 0xF0 → 0x90 ≤ b.toNat)
    (hhigh : a.toNat = 0xF4 → b.toNat ≤ 0x8F) (rest : Bytes) :
    cut a (b :: c :: d :: rest) = (char (join a 8 [b, c, d]), rest) := by
  have hlead : ∃ low high, lead? a = some (3, low, high) ∧ within low high b = true := by
    obtain ⟨hb, hb'⟩ := hb
    rw [lead?_eq]
    split_ifs with h1 h2 h3 h4 h5 h6 h7 h8
    case pos => omega
    case pos => omega
    case pos => omega
    case pos => omega
    case pos => omega
    case pos => exact ⟨_, _, rfl, within_iff.mpr ⟨hlow h6, hb'⟩⟩
    case pos => exact ⟨_, _, rfl, within_iff.mpr ⟨hb, hb'⟩⟩
    case pos => exact ⟨_, _, rfl, within_iff.mpr ⟨hb, hhigh h8⟩⟩
    case neg => omega
  obtain ⟨low, high, hlead, hwithin⟩ := hlead
  have hlt : ¬ a < 0x80 := not_lt_of_le (by omega)
  simp [cut, hlt, hlead, hwithin, isTail_of_follows hc, isTail_of_follows hd]

theorem toNat_ofNat_of_lt {n : Nat} (h : n < 256) : (UInt8.ofNat n).toNat = n := by
  rw [UInt8.toNat_ofNat']
  exact Nat.mod_eq_of_lt h

/-- An octet that follows the first one, and what it carries. -/
theorem follows_ofNat (n : Nat) :
    Follows (UInt8.ofNat (n % 64 + 128)) ∧ (UInt8.ofNat (n % 64 + 128)).toNat % 64 = n % 64 := by
  rw [Follows, toNat_ofNat_of_lt (by omega)]
  omega

/-- The octets of a character are cut off as this character. -/
theorem cut_utf8EncodeChar (c : Char) (rest : Bytes) :
    ∃ a tail, String.utf8EncodeChar c = a :: tail ∧ cut a (tail ++ rest) = (.char c, rest) := by
  have hvalid : c.val.toNat < 0xD800 ∨ 0xDFFF < c.val.toNat ∧ c.val.toNat < 0x110000 := c.valid
  have hc : Char.ofNat c.val.toNat = c := Char.ofNat_toNat c
  unfold String.utf8EncodeChar
  generalize c.val.toNat = v at *
  subst hc
  simp only
  split_ifs with h1 h2 h3
  case pos =>
    have ha : (UInt8.ofNat v).toNat = v := toNat_ofNat_of_lt (by omega)
    refine ⟨_, [], rfl, ?_⟩
    rw [List.nil_append, cut_one (by omega), ha]
  case pos =>
    have ha : (UInt8.ofNat (v / 64 % 32 + 192)).toNat = v / 64 % 32 + 192 :=
      toNat_ofNat_of_lt (by omega)
    obtain ⟨hb, hb'⟩ := follows_ofNat v
    refine ⟨_, _, rfl, ?_⟩
    have hjoin : (v / 64 % 32 + 192) % 32 * 64 + v % 64 = v := by omega
    rw [List.cons_append, List.nil_append, cut_two (by omega) hb]
    simp only [join, List.foldl_cons, List.foldl_nil, ha, hb', hjoin]
  case pos =>
    have ha : (UInt8.ofNat (v / 4096 % 16 + 224)).toNat = v / 4096 % 16 + 224 :=
      toNat_ofNat_of_lt (by omega)
    obtain ⟨hb, hb'⟩ := follows_ofNat (v / 64)
    obtain ⟨hc, hc'⟩ := follows_ofNat v
    have hvalue : (UInt8.ofNat (v / 64 % 64 + 128)).toNat = v / 64 % 64 + 128 :=
      toNat_ofNat_of_lt (by omega)
    have hjoin : ((v / 4096 % 16 + 224) % 16 * 64 + v / 64 % 64) * 64 + v % 64 = v := by omega
    refine ⟨_, _, rfl, ?_⟩
    rw [List.cons_append, List.cons_append, List.nil_append,
      cut_three (by omega) hb hc (by omega) (by omega)]
    simp only [join, List.foldl_cons, List.foldl_nil, ha, hb', hc', hjoin]
  case neg =>
    have ha : (UInt8.ofNat (v / 262144 % 8 + 240)).toNat = v / 262144 % 8 + 240 :=
      toNat_ofNat_of_lt (by omega)
    obtain ⟨hb, hb'⟩ := follows_ofNat (v / 4096)
    obtain ⟨hc, hc'⟩ := follows_ofNat (v / 64)
    obtain ⟨hd, hd'⟩ := follows_ofNat v
    have hvalue : (UInt8.ofNat (v / 4096 % 64 + 128)).toNat = v / 4096 % 64 + 128 :=
      toNat_ofNat_of_lt (by omega)
    have hjoin : (((v / 262144 % 8 + 240) % 8 * 64 + v / 4096 % 64) * 64 + v / 64 % 64) * 64
        + v % 64 = v := by omega
    refine ⟨_, _, rfl, ?_⟩
    rw [List.cons_append, List.cons_append, List.cons_append, List.nil_append,
      cut_four (by omega) hb hc hd (by omega) (by omega)]
    simp only [join, List.foldl_cons, List.foldl_nil, ha, hb', hc', hd', hjoin]

theorem ofBytes_utf8EncodeChar (c : Char) (rest : Bytes) :
    ofBytes (String.utf8EncodeChar c ++ rest) = .char c :: ofBytes rest := by
  obtain ⟨a, tail, hc, hcut⟩ := cut_utf8EncodeChar c rest
  rw [hc, List.cons_append, ofBytes, hcut]

/-- The octets of a text are cut into its characters. -/
theorem ofBytes_ofString (s : String) : ofBytes (Bytes.ofString s) = ofString s := by
  unfold Bytes.ofString ofString
  induction s.toList with
  | nil => rw [List.flatMap_nil, ofBytes, List.map_nil]
  | cons c cs ih => rw [List.flatMap_cons, ofBytes_utf8EncodeChar, ih, List.map_cons]

theorem mapM_char?_ofString (s : String) : (ofString s).mapM char? = some s.toList := by
  unfold ofString
  induction s.toList with
  | nil => rfl
  | cons c cs ih =>
    rw [List.map_cons, List.mapM_cons, ih]
    rfl

end Glyph

/-- The octets of a text spell the text. -/
theorem Bytes.toString?_ofString (s : String) : (Bytes.ofString s).toString? = some s := by
  rw [Bytes.toString?, Glyph.ofBytes_ofString, Glyph.mapM_char?_ofString, Option.map_some,
    String.ofList_toList]

end LiveQuery
