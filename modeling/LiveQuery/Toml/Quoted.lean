import LiveQuery.Text.Integer

/-!
# Quoted text in TOML

A text stands between double quotes, in which a backslash starts an escape, or between single
quotes, in which every character stands for itself; and between three quotes of either kind, where
it may go over several lines. A reader here starts behind the opening quotes and gives the text and
what follows the closing ones, or the number of characters that are left where it gets stuck.
-/

namespace LiveQuery.Toml

/-- What a reader makes of the text in front of it: something, and the text behind it. Where it gets
stuck, it says how many characters are left. -/
abbrev Reader (α : Type) := List Char → Except Nat (α × List Char)

namespace Quoted

/-- A reader that stops here, with nothing. -/
def done (rest : List Char) : Except Nat (List Char × List Char) := .ok ([], rest)

/-- A reader that is stuck here. -/
def stuck (rest : List Char) : Except Nat α := .error rest.length

/-- A character in front of what a reader goes on to read. -/
def cons (c : Char) (r : Except Nat (List Char × List Char)) :
    Except Nat (List Char × List Char) := do
  let (text, rest) ← r
  return (c :: text, rest)

/-- Whether a character is one that no text may hold as it is. A tab may stand. -/
def isControl (c : Char) : Bool := (c.toNat < 0x20 && c ≠ '\t') || c = '\x7f'

/-- The character that a letter behind a backslash stands for. -/
def escape? : Char → Option Char
  | 'b' => some '\x08'
  | 't' => some '\t'
  | 'n' => some '\n'
  | 'f' => some '\x0c'
  | 'r' => some '\r'
  | '"' => some '"'
  | '\\' => some '\\'
  | _ => none

/-- The character with a code point in hexadecimal digits. -/
def scalar? (digits : List Char) : Option Char := do
  let n ← digits.foldlM (fun n c => (Text.hexValue? c).map (n * 16 + ·)) 0
  if n < 0xD800 ∨ (0xDFFF < n ∧ n < 0x110000) then some (Char.ofNat n) else none

/-- Reads a text between double quotes. -/
def basic : List Char → Except Nat (List Char × List Char)
  | [] => stuck []
  | '"' :: rest => done rest
  | '\\' :: 'u' :: a :: b :: c :: d :: rest =>
    match scalar? [a, b, c, d] with
    | some x => cons x (basic rest)
    | none => stuck (a :: b :: c :: d :: rest)
  | '\\' :: 'U' :: a :: b :: c :: d :: e :: f :: g :: h :: rest =>
    match scalar? [a, b, c, d, e, f, g, h] with
    | some x => cons x (basic rest)
    | none => stuck (a :: b :: c :: d :: e :: f :: g :: h :: rest)
  | '\\' :: x :: rest =>
    match escape? x with
    | some y => cons y (basic rest)
    | none => stuck (x :: rest)
  | c :: rest => if isControl c || c = '\\' then stuck (c :: rest) else cons c (basic rest)

/-- Reads a text between single quotes. -/
def literal : List Char → Except Nat (List Char × List Char)
  | [] => stuck []
  | '\'' :: rest => done rest
  | c :: rest => if isControl c then stuck (c :: rest) else cons c (literal rest)

/-- Whether nothing but blanks follows on the line. -/
def endsLine : List Char → Bool
  | [] => false
  | c :: rest =>
    c = '\n' || (c = '\r' && rest.head? = some '\n') || ((c = ' ' || c = '\t') && endsLine rest)

/-- A blank of a text that goes over several lines: behind a backslash that ends a line, the blanks
in front of the next character are left out. -/
def blank (skipping : Bool) (c : Char) (next : Except Nat (List Char × List Char)) :
    Except Nat (List Char × List Char) := if skipping then next else cons c next

/-- Reads a text between three double quotes. Up to two quotes may stand in front of the closing
ones. -/
def basicLines : Bool → List Char → Except Nat (List Char × List Char)
  | _, [] => stuck []
  | _, '"' :: '"' :: '"' :: '"' :: '"' :: rest => .ok (['"', '"'], rest)
  | _, '"' :: '"' :: '"' :: '"' :: rest => .ok (['"'], rest)
  | _, '"' :: '"' :: '"' :: rest => done rest
  | _, '\\' :: 'u' :: a :: b :: c :: d :: rest =>
    match scalar? [a, b, c, d] with
    | some x => cons x (basicLines false rest)
    | none => stuck (a :: b :: c :: d :: rest)
  | _, '\\' :: 'U' :: a :: b :: c :: d :: e :: f :: g :: h :: rest =>
    match scalar? [a, b, c, d, e, f, g, h] with
    | some x => cons x (basicLines false rest)
    | none => stuck (a :: b :: c :: d :: e :: f :: g :: h :: rest)
  | _, '\\' :: x :: rest =>
    match escape? x with
    | some y => cons y (basicLines false rest)
    | none => if endsLine (x :: rest) then basicLines true (x :: rest) else stuck (x :: rest)
  | skipping, ' ' :: rest => blank skipping ' ' (basicLines skipping rest)
  | skipping, '\t' :: rest => blank skipping '\t' (basicLines skipping rest)
  | skipping, '\n' :: rest => blank skipping '\n' (basicLines skipping rest)
  | skipping, '\r' :: '\n' :: rest => blank skipping '\n' (basicLines skipping rest)
  | _, c :: rest =>
    if isControl c || c = '\\' then stuck (c :: rest) else cons c (basicLines false rest)

/-- Reads a text between three single quotes. Up to two quotes may stand in front of the closing
ones. -/
def literalLines : List Char → Except Nat (List Char × List Char)
  | [] => stuck []
  | '\'' :: '\'' :: '\'' :: '\'' :: '\'' :: rest => .ok (['\'', '\''], rest)
  | '\'' :: '\'' :: '\'' :: '\'' :: rest => .ok (['\''], rest)
  | '\'' :: '\'' :: '\'' :: rest => done rest
  | '\n' :: rest => cons '\n' (literalLines rest)
  | '\r' :: '\n' :: rest => cons '\n' (literalLines rest)
  | c :: rest => if isControl c then stuck (c :: rest) else cons c (literalLines rest)

/-- A text without the line break it starts with. -/
def skipBreak : List Char → List Char
  | '\n' :: rest => rest
  | '\r' :: '\n' :: rest => rest
  | rest => rest

/-- Reads a quoted text on one line. -/
def readLine : List Char → Except Nat (List Char × List Char)
  | '"' :: rest => basic rest
  | '\'' :: rest => literal rest
  | rest => stuck rest

/-- Reads a quoted text of any kind. -/
def read : List Char → Except Nat (List Char × List Char)
  | '"' :: '"' :: '"' :: rest => basicLines false (skipBreak rest)
  | '\'' :: '\'' :: '\'' :: rest => literalLines (skipBreak rest)
  | rest => readLine rest

end Quoted
end LiveQuery.Toml
