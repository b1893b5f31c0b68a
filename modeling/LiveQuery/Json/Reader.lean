import LiveQuery.Json.Doc

/-!
# Laying out a JSON text

`Doc.read` lays out the value at the head of a text. Strings and numbers are read to their end even
if their value is faulty; where the text itself breaks, the layout ends and no cursor is left.
-/

namespace LiveQuery.Json

/-- What is left of a text, and where it starts. -/
structure Cursor where
  rest : List Glyph
  position : Position

namespace Cursor

/-- The place of the octet at the head. -/
def peek (c : Cursor) : Position := c.position.peek c.rest

/-- Whether a character is a blank between tokens. -/
def isBlank (c : Char) : Bool := c = ' ' || c = '\n' || c = '\t' || c = '\r'

/-- The blanks at the head of a text passed over. -/
def skipBlanksFrom (p : Position) : List Glyph → Cursor
  | .char c :: rest =>
    if isBlank c then skipBlanksFrom (p.after (.char c)) rest else ⟨.char c :: rest, p⟩
  | rest => ⟨rest, p⟩

/-- The cursor behind the blanks at its head. -/
def skipBlanks (c : Cursor) : Cursor := skipBlanksFrom c.position c.rest

/-- The digits at the head of a text, and the cursor behind them. -/
def digitsFrom (p : Position) : List Glyph → List Nat × Cursor
  | .char c :: rest =>
    if c.isDigit then
      let (ds, next) := digitsFrom p.next rest
      ((c.toNat - 48) :: ds, next)
    else ([], ⟨.char c :: rest, p⟩)
  | rest => ([], ⟨rest, p⟩)

/-- The digits at the head, and the cursor behind them. -/
def digits (c : Cursor) : List Nat × Cursor := digitsFrom c.position c.rest

end Cursor

/-- A word, number or string cut off a text: whole, with its value or what is wrong with it, or
broken off, with the error for a reader that wants it and for one that passes over it. -/
inductive Lexeme (α : Type) where
  | whole (value : Except Error α) (next : Cursor)
  | broken (error skipped : Error)

/-! ## Words -/

/-- Reads the letters of a word. -/
def Lexeme.word (value : α) : List Char → Cursor → Lexeme α
  | [], c => .whole (.ok value) c
  | letter :: letters, c =>
    match c.rest with
    | [] => .broken ⟨.eofValue, c.position⟩ ⟨.eofValue, c.position⟩
    | g :: rest =>
      if g = .char letter then Lexeme.word value letters ⟨rest, c.position.next⟩
      else .broken ⟨.expectedWord, c.peek⟩ ⟨.expectedWord, c.peek⟩

/-! ## Numbers -/

/-- The first integer that 64 bits cannot hold. -/
def wordLimit : Nat := UInt64.size

/-- Digits gathered into at most 64 bits: the significand, and the power of ten it is short of. Once
a digit does not fit, the digits before the point only count. -/
structure Gathered where
  significand : Nat
  exponent : Int
  full : Bool
  deriving DecidableEq, Repr

namespace Gathered

/-- Nothing gathered. -/
def empty : Gathered := ⟨0, 0, false⟩

/-- A digit before the point. -/
def whole (g : Gathered) (d : Nat) : Gathered :=
  if g.full then { g with exponent := g.exponent + 1 }
  else if g.significand * 10 + d < wordLimit then { g with significand := g.significand * 10 + d }
  else { g with exponent := g.exponent + 1, full := true }

/-- A digit behind the point; from the first that does not fit they are dropped. -/
def fraction (g : Gathered) (d : Nat) : Gathered :=
  if g.full then g
  else if g.significand * 10 + d < wordLimit then
    ⟨g.significand * 10 + d, g.exponent - 1, false⟩
  else { g with full := true }

end Gathered

/-- The number `significand * 10 ^ exponent`: the significand is rounded first, then multiplied or
divided by a power of ten, in two steps if that power is beyond the largest one. -/
def scaled (negative : Bool) (significand : Nat) (exponent : Int) : Option Binary64 := do
  if significand = 0 then some (.zero negative)
  else
    let f ← Binary64.ofNat significand
    let size ←
      if 308 < exponent then none
      else if 0 ≤ exponent then f.mul (← Binary64.powTen exponent.toNat)
      else if -308 ≤ exponent then f.div (← Binary64.powTen (-exponent).toNat)
      else if -616 ≤ exponent then
        (← f.div (← Binary64.powTen 308)).div (← Binary64.powTen (-(exponent + 308)).toNat)
      else some (.zero false)
    some (size.withSign negative)

/-- An integer literal: kept as an integer where 64 bits hold it, and not for `-0`. -/
def integer (negative : Bool) (n : Nat) : Number :=
  if !negative then .int n
  else if n = 0 ∨ -(n : Int) < Number.least then
    .real ((Binary64.ofNat n).getD (.zero false) |>.withSign true)
  else .int (-(n : Int))

/-- The value of an exponent, or the place behind the digit at which it outgrows 31 bits. -/
def exponentValue (p : Position) : Nat → List Nat → Except Position Nat
  | acc, [] => .ok acc
  | acc, d :: ds =>
    if 0x7FFFFFFF < acc * 10 + d then .error p.next
    else exponentValue p.next (acc * 10 + d) ds

/-- The rest of a number from its exponent mark on. -/
def exponentPart (negative : Bool) (g : Gathered) (c : Cursor) : Lexeme Number :=
  let (down, c) : Bool × Cursor :=
    match c.rest with
    | .char '-' :: rest => (true, ⟨rest, c.position.next⟩)
    | .char '+' :: rest => (false, ⟨rest, c.position.next⟩)
    | _ => (false, c)
  match c.digits with
  | ([], _) =>
    if c.rest.isEmpty then .broken ⟨.eofValue, c.position⟩ ⟨.invalidNumber, c.position⟩
    else .broken ⟨.invalidNumber, c.peek⟩ ⟨.invalidNumber, c.peek⟩
  | (ds, next) =>
    match exponentValue c.position 0 ds with
    | .ok e =>
      match scaled negative g.significand (if down then g.exponent - e else g.exponent + e) with
      | some x => .whole (.ok (.real x)) next
      | none => .whole (.error ⟨.numberOutOfRange, next.position⟩) next
    | .error p =>
      if g.significand ≠ 0 ∧ !down then .whole (.error ⟨.numberOutOfRange, p⟩) next
      else .whole (.ok (.real (.zero negative))) next

/-- The rest of a number with a fraction but without an exponent, or a long integer. -/
def scaledLexeme (negative : Bool) (g : Gathered) (c : Cursor) : Lexeme Number :=
  match scaled negative g.significand g.exponent with
  | some x => .whole (.ok (.real x)) c
  | none => .whole (.error ⟨.numberOutOfRange, c.position⟩) c

/-- Whether a glyph marks an exponent. -/
def isExponentMark (g : Glyph) : Bool := g = .char 'e' || g = .char 'E'

/-- The rest of a number behind its point. -/
def fractionPart (negative : Bool) (g : Gathered) (c : Cursor) : Lexeme Number :=
  match c.digits with
  | ([], _) =>
    if c.rest.isEmpty then .broken ⟨.eofValue, c.position⟩ ⟨.invalidNumber, c.position⟩
    else .broken ⟨.invalidNumber, c.peek⟩ ⟨.invalidNumber, c.peek⟩
  | (ds, next) =>
    let g := ds.foldl Gathered.fraction { g with full := false }
    match next.rest with
    | m :: rest =>
      if isExponentMark m then exponentPart negative g ⟨rest, next.position.next⟩
      else scaledLexeme negative g next
    | [] => scaledLexeme negative g next

/-- A number behind its sign. -/
def unsigned (negative : Bool) (c : Cursor) : Lexeme Number :=
  match c.digits with
  | ([], _) =>
    if c.rest.isEmpty then .broken ⟨.eofValue, c.position⟩ ⟨.invalidNumber, c.position⟩
    else .broken ⟨.invalidNumber, c.peek⟩ ⟨.invalidNumber, c.peek⟩
  | (0 :: _ :: _, _) =>
    let p := c.position.next.next
    .broken ⟨.invalidNumber, p⟩ ⟨.invalidNumber, p⟩
  | (ds, next) =>
    let g := ds.foldl Gathered.whole .empty
    match next.rest with
    | .char '.' :: rest => fractionPart negative g ⟨rest, next.position.next⟩
    | m :: rest =>
      if isExponentMark m then exponentPart negative g ⟨rest, next.position.next⟩
      else if g.full then scaledLexeme negative g next
      else .whole (.ok (integer negative g.significand)) next
    | [] =>
      if g.full then scaledLexeme negative g next
      else .whole (.ok (integer negative g.significand)) next

/-- The number at the head of a text. -/
def Lexeme.number (c : Cursor) : Lexeme Number :=
  match c.rest with
  | .char '-' :: rest => unsigned true ⟨rest, c.position.next⟩
  | _ => unsigned false c

/-! ## Strings -/

/-- The value of a hexadecimal digit. -/
def hexValue? (c : Char) : Option Nat :=
  if '0' ≤ c ∧ c ≤ '9' then some (c.toNat - 48)
  else if 'a' ≤ c ∧ c ≤ 'f' then some (c.toNat - 87)
  else if 'A' ≤ c ∧ c ≤ 'F' then some (c.toNat - 55)
  else none

/-- The value of four hexadecimal digits at the head of a text. -/
def hexFour? : List Glyph → Option Nat
  | .char a :: .char b :: .char c :: .char d :: _ => do
    let a ← hexValue? a
    let b ← hexValue? b
    let c ← hexValue? c
    let d ← hexValue? d
    some (((a * 16 + b) * 16 + c) * 16 + d)
  | _ => none

/-- What a letter stands for behind a backslash. -/
def escaped? (c : Char) : Option Char :=
  if c = '"' ∨ c = '\\' ∨ c = '/' then some c
  else if c = 'b' then some '\x08'
  else if c = 'f' then some '\x0c'
  else if c = 'n' then some '\n'
  else if c = 'r' then some '\r'
  else if c = 't' then some '\t'
  else none

/-- Whether a code unit opens a surrogate pair. -/
def isHigh (n : Nat) : Bool := 0xD800 ≤ n && n ≤ 0xDBFF

/-- Whether a code unit closes a surrogate pair. -/
def isLow (n : Nat) : Bool := 0xDC00 ≤ n && n ≤ 0xDFFF

/-- The character of a surrogate pair. -/
def pair (high low : Nat) : Char := Char.ofNat (0x10000 + (high - 0xD800) * 1024 + (low - 0xDC00))

/-- What a string held so far: its characters, the last one first, and the first fault of each sort.
A stray octet is reported only if the string's escapes are in order. -/
structure Held where
  chars : List Char
  bad : Option Error
  stray : Option Error

namespace Held

/-- An empty string so far. -/
def empty : Held := ⟨[], none, none⟩

/-- One more character. -/
def push (h : Held) (c : Char) : Held := { h with chars := c :: h.chars }

/-- A fault of the escapes; the first one stays. -/
def fail (h : Held) (e : Option Error) : Held := { h with bad := h.bad.or e }

/-- Stray octets; the first ones stay. -/
def misread (h : Held) (e : Error) : Held := { h with stray := h.stray.or (some e) }

/-- The string, or its fault. -/
def value (h : Held) : Except Error String :=
  match h.bad, h.stray with
  | some e, _ => .error e
  | none, some e => .error e
  | none, none => .ok (String.ofList h.chars.reverse)

/-- The string broken off by an error. -/
def broken (h : Held) (error skipped : Error) : Lexeme String :=
  .broken (h.bad.getD error) skipped

end Held

/-- The error of a `\u` escape without four hexadecimal digits. -/
def badHex (p : Position) (rest : List Glyph) : Error :=
  if (rest.flatMap Glyph.bytes).length < 4 then ⟨.eofString, p.skip 4 rest⟩
  else ⟨.invalidEscape, p.skip 4 rest⟩

/-- What an escape comes to: a character, a fault that only the string's value suffers from, or the
end of the reading. The text behind a surrogate that stands alone is read on from there. -/
inductive Escape where
  | spells (c : Char) (rest : List Glyph) (position : Position)
  | faulty (error : Option Error) (rest : List Glyph) (position : Position)
  | broken (error : Error)

/-- What a high surrogate comes to with the text behind it. -/
def pairing (high : Nat) (p : Position) (rest : List Glyph) : Escape :=
  match rest with
  | .char '\\' :: .char 'u' :: more =>
    let q : Position := ⟨p.line, p.column + 6⟩
    match hexFour? more with
    | some low =>
      if isLow low then .spells (pair high low) (more.drop 4) q
      else .faulty (some ⟨.loneSurrogate, q⟩) rest p
    | none => .faulty none rest p
  | [] => .faulty none rest p
  | [.char '\\'] => .faulty none rest p
  | .char '\\' :: more => .faulty (some ⟨.unfinishedPair, p.next.peek more⟩) rest p
  | _ => .faulty (some ⟨.unfinishedPair, p.peek rest⟩) rest p

/-- What the text behind a backslash comes to. -/
def escape (p : Position) : List Glyph → Escape
  | [] => .broken ⟨.eofString, p⟩
  | .char 'u' :: rest =>
    match hexFour? rest with
    | none => .broken (badHex p.next rest)
    | some n =>
      let q : Position := ⟨p.line, p.column + 5⟩
      if isLow n then .faulty (some ⟨.loneSurrogate, q⟩) (rest.drop 4) q
      else if isHigh n then pairing n q (rest.drop 4)
      else .spells (Char.ofNat n) (rest.drop 4) q
  | .char c :: rest =>
    match escaped? c with
    | some x => .spells x rest p.next
    | none => .broken ⟨.invalidEscape, p.peek (.char c :: rest)⟩
  | .stray _ :: _ => .broken ⟨.invalidEscape, p.next⟩

/-- The text that an escape leaves, if it leaves one. -/
def Escape.rest? : Escape → Option (List Glyph)
  | spells _ rest _ => some rest
  | faulty _ rest _ => some rest
  | broken _ => none

/-- A surrogate leaves no more text than stood behind it. -/
theorem pairing_rest_length (high : Nat) (p : Position) (rest left : List Glyph)
    (h : (pairing high p rest).rest? = some left) : left.length ≤ rest.length := by
  unfold pairing at h
  split at h
  · split at h
    · split at h
      all_goals
        simp only [Escape.rest?, Option.some.injEq] at h
        subst h
        grind
    · grind [Escape.rest?]
  all_goals grind [Escape.rest?]

/-- An escape leaves less text than stood behind its backslash. -/
theorem escape_rest_length (p : Position) (rest left : List Glyph)
    (h : (escape p rest).rest? = some left) : left.length < rest.length := by
  unfold escape at h
  split at h
  · simp [Escape.rest?] at h
  · rename_i more
    split at h
    · simp [Escape.rest?] at h
    · split at h
      · simp only [Escape.rest?, Option.some.injEq] at h
        subst h
        grind
      · split at h
        · have := pairing_rest_length _ _ _ _ h
          grind
        · simp only [Escape.rest?, Option.some.injEq] at h
          subst h
          grind
  · grind [Escape.rest?]
  · simp [Escape.rest?] at h

/-- The rest of a string behind its opening quote. -/
def stringFrom (held : Held) (p : Position) : List Glyph → Lexeme String
  | [] => held.broken ⟨.eofString, p⟩ ⟨.eofString, p⟩
  | .stray bs :: rest =>
    stringFrom (held.misread ⟨.invalidUnicode, p.next⟩) (p.after (.stray bs)) rest
  | .char c :: rest =>
    if c = '"' then .whole held.value ⟨rest, p.next⟩
    else if c = '\\' then
      match _h : escape p.next rest with
      | .spells x left q => stringFrom (held.push x) q left
      | .faulty error left q => stringFrom (held.fail error) q left
      | .broken error => held.broken error error
    else if c.toNat < 0x20 then
      held.broken ⟨.controlCharacter, p.after (.char c)⟩ ⟨.controlCharacter, p⟩
    else stringFrom (held.push c) (p.after (.char c)) rest
  termination_by text => text.length
  decreasing_by
    · simp
    · have := escape_rest_length p.next rest left (by rw [_h]; rfl)
      grind
    · have := escape_rest_length p.next rest left (by rw [_h]; rfl)
      grind
    · simp

/-- The string whose opening quote is at the head. -/
def Lexeme.string (c : Cursor) : Lexeme String :=
  stringFrom .empty c.position.next (c.rest.drop 1)

/-! ## Values -/

/-- A lexeme laid out as a value. -/
def Lexeme.doc (make : Except Error α → Position → Position → Doc) (quoted : Bool)
    (start : Position) : Lexeme α → Doc × Option Cursor
  | whole value next => (make value start next.position, some next)
  | broken error skipped => (.broken start quoted error skipped, none)

/-- Where a reader stands behind a key that it does not want. -/
def settledAt (c : Cursor) : Position :=
  let c := c.skipBlanks
  match c.rest with
  | .char '\x7d' :: _ => c.position.next
  | _ => c.position

mutual
/-- The value at the head of a text, and the cursor behind it unless the text broke. -/
def Doc.read : Nat → Cursor → Doc × Option Cursor
  | 0, c => (.fault ⟨.eofValue, c.position⟩, none)
  | fuel + 1, c =>
    let c := c.skipBlanks
    let p := c.position
    match c.rest with
    | [] => (.fault ⟨.eofValue, p⟩, none)
    | .char 'n' :: rest =>
      (Lexeme.word () ['u', 'l', 'l'] ⟨rest, p.next⟩).doc (fun _ => .null) false p
    | .char 't' :: rest =>
      (Lexeme.word () ['r', 'u', 'e'] ⟨rest, p.next⟩).doc (fun _ => .bool true) false p
    | .char 'f' :: rest =>
      (Lexeme.word () ['a', 'l', 's', 'e'] ⟨rest, p.next⟩).doc (fun _ => .bool false) false p
    | .char '"' :: _ => (Lexeme.string c).doc .string true p
    | .char '[' :: rest =>
      let (items, stop, next) := Doc.readItems fuel true ⟨rest, p.next⟩
      (.array p items stop, next)
    | .char '\x7b' :: rest =>
      let (members, stop, next) := Doc.readMembers fuel true ⟨rest, p.next⟩
      (.object p members stop, next)
    | .char d :: _ =>
      if d = '-' || d.isDigit then (Lexeme.number c).doc .number false p
      else (.fault ⟨.expectedValue, c.peek⟩, none)
    | .stray _ :: _ => (.fault ⟨.expectedValue, c.peek⟩, none)

/-- The items of an array from the next one on; `first` says that none came before. -/
def Doc.readItems : Nat → Bool → Cursor → List (Position × Doc) × Stop × Option Cursor
  | 0, _, c => ([], .cut .ended c.position, none)
  | fuel + 1, first, c =>
    let c := c.skipBlanks
    let item (c : Cursor) :=
      let (doc, next) := Doc.read fuel c
      match next with
      | none => ([(c.peek, doc)], .inside, none)
      | some next =>
        let (items, stop, end?) := Doc.readItems fuel false next
        ((c.peek, doc) :: items, stop, end?)
    match c.rest with
    | [] => ([], .cut .ended c.position, none)
    | .char ']' :: rest =>
      ([], .closed c.position.next, some ⟨rest, c.position.next⟩)
    | g :: rest =>
      if first then item c
      else if g = .char ',' then
        let c := (Cursor.mk rest c.position.next).skipBlanks
        match c.rest with
        | [] => ([], .cut .endedAfterComma c.position, none)
        | .char ']' :: _ => ([], .cut .trailingComma c.peek, none)
        | _ => item c
      else ([], .cut .noComma c.peek, none)

/-- The members of an object from the next one on; `first` says that none came before. -/
def Doc.readMembers : Nat → Bool → Cursor → List (Key × Doc) × Stop × Option Cursor
  | 0, _, c => ([], .cut .ended c.position, none)
  | fuel + 1, first, c =>
    let c := c.skipBlanks
    let member (c : Cursor) :=
      match Lexeme.string c with
      | .broken error skipped => ([], .badKey error skipped, none)
      | .whole name next =>
        let p := next.position
        let colon := next.skipBlanks
        let key (done : Position) : Key := ⟨name, p, settledAt next, done⟩
        match colon.rest with
        | [] => ([(key p, .fault ⟨.eofObject, colon.position⟩)], .inside, none)
        | g :: rest =>
          if g = .char ':' then
            let (doc, next) := Doc.read fuel ⟨rest, colon.position.next⟩
            match next with
            | none => ([(key p, doc)], .inside, none)
            | some next =>
              let (members, stop, end?) := Doc.readMembers fuel false next
              ((key next.skipBlanks.position, doc) :: members, stop, end?)
          else ([(key p, .fault ⟨.expectedColon, colon.peek⟩)], .inside, none)
    let noKey (c : Cursor) := ([], .noKey c.peek (Doc.read fuel c).1.found, none)
    match c.rest with
    | [] => ([], .cut .ended c.position, none)
    | .char '\x7d' :: rest =>
      ([], .closed c.position.next, some ⟨rest, c.position.next⟩)
    | g :: rest =>
      if first then
        if g = .char '"' then member c else noKey c
      else if g = .char ',' then
        let c := (Cursor.mk rest c.position.next).skipBlanks
        match c.rest with
        | [] => ([], .cut .endedAfterComma c.position, none)
        | .char '\x7d' :: _ => ([], .cut .trailingComma c.peek, none)
        | .char '"' :: _ => member c
        | _ => noKey c
      else ([], .cut .noComma c.peek, none)
end

/-- The layout of the value that a whole text holds, and the cursor behind it. Each level takes two
steps and at least one glyph, so the fuel outlasts the text. -/
def Doc.ofGlyphs (text : List Glyph) : Doc × Option Cursor :=
  Doc.read (2 * text.length + 2) ⟨text, .start⟩

end LiveQuery.Json
