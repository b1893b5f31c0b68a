import LiveQuery.Toml.Assembly
import LiveQuery.Toml.Word

/-!
# Reading a TOML document

A document is a sequence of lines: headers, assignments, comments and empty ones. An assignment may
go over several lines, because its value may. `document?` reads the lines, gathers them into
sections and puts the tables together.

Arrays and inline tables may lie in one another up to a depth that no document written by hand
reaches, and so does the number of parts of a dotted key. The two bounds are the structural measures
of the readers.
-/

namespace LiveQuery.Toml

/-- How deep arrays and inline tables may lie in one another. -/
def maxDepth : Nat := 79

/-- How many parts a dotted key may have. -/
def maxParts : Nat := 79

/-- Whether a character is a blank within a line. -/
def isBlank (c : Char) : Bool := c = ' ' || c = '\t'

/-- A text without the blanks it starts with. -/
def skipBlanks (cs : List Char) : List Char := cs.dropWhile isBlank

/-- A text without the comment it starts with. -/
def skipComment : List Char → List Char
  | '#' :: rest => rest.dropWhile fun c => !Quoted.isControl c
  | rest => rest

/-- A text without the blanks, line breaks and comments it starts with, or, within a comment, from
there on. -/
def skipGap : Bool → List Char → List Char
  | _, [] => []
  | inComment, c :: rest =>
    if inComment && !Quoted.isControl c then skipGap true rest
    else if c = ' ' || c = '\t' || c = '\n' then skipGap false rest
    else if c = '#' then skipGap true rest
    else if c = '\r' then
      match rest with
      | '\n' :: more => skipGap false more
      | _ => c :: rest
    else c :: rest

/-- Reads one given character. -/
def exactly (c : Char) : Reader Unit
  | [] => .error 0
  | d :: rest => if d = c then .ok ((), rest) else .error (d :: rest).length

/-- Reads the end of a line, or of the text. -/
def readBreak : Reader Unit
  | [] => .ok ((), [])
  | '\n' :: rest => .ok ((), rest)
  | '\r' :: '\n' :: rest => .ok ((), rest)
  | rest => .error rest.length

/-- Reads what is left of a line behind a header or a value. -/
def readTail : Reader Unit := fun cs => readBreak (skipComment (skipBlanks cs))

/-! ## Keys -/

/-- Whether a character may be part of a key without quotes. -/
def isKeyChar (c : Char) : Bool := c.isAlphanum || c = '_' || c = '-'

/-- Reads the name of a key, with or without quotes. -/
def readName : Reader String := fun cs =>
  if cs.head? = some '"' ∨ cs.head? = some '\'' then do
    let (name, rest) ← Quoted.readLine cs
    return (String.ofList name, rest)
  else
    let name := cs.takeWhile isKeyChar
    if name.isEmpty then .error cs.length
    else .ok (String.ofList name, cs.dropWhile isKeyChar)

/-- Reads a key of at most so many parts: the parts but the last, and the last. -/
def readKey : Nat → Reader (List Key × Key)
  | 0, cs => .error cs.length
  | n + 1, cs => do
    let start := skipBlanks cs
    let (name, rest) ← readName start
    let key : Key := ⟨name, start.length, rest.length⟩
    match skipBlanks rest with
    | '.' :: more =>
      let ((way, last), more) ← readKey n more
      return ((key :: way, last), more)
    | rest => return (([], key), rest)

/-! ## Values -/

/-- Reads the items of an array, from behind its bracket or a comma on. -/
def readItems (item : Reader Node) : Nat → Reader (List Node)
  | 0, cs => .error cs.length
  | n + 1, cs =>
    match skipGap false cs with
    | ']' :: rest => .ok ([], rest)
    | start => do
      let (v, rest) ← item start
      match skipGap false rest with
      | ',' :: more =>
        let (items, rest) ← readItems item n more
        return (v :: items, rest)
      | ']' :: rest => return ([v], rest)
      | rest => .error rest.length

/-- Reads an assignment: a key, an equals sign and a value. -/
def readAssignment (value : Reader Node) : Reader Assignment := fun cs => do
  let ((way, key), rest) ← readKey maxParts cs
  let ((), rest) ← exactly '=' rest
  let (v, rest) ← value (skipBlanks rest)
  return (⟨(skipBlanks cs).length, way, key, v⟩, rest)

/-- Reads the assignments of an inline table, from behind its brace or a comma on. -/
def readFields (value : Reader Node) : Nat → Reader (List Assignment)
  | 0, cs => .error cs.length
  | n + 1, cs => do
    let (a, rest) ← readAssignment value cs
    match skipBlanks rest with
    | ',' :: more =>
      let (more, rest) ← readFields value n more
      return (a :: more, rest)
    | '\x7d' :: rest => return ([a], rest)
    | rest => .error rest.length

/-- Reads a value that has no values inside it. -/
def readScalar : Reader Node := fun cs =>
  if cs.head? = some '"' ∨ cs.head? = some '\'' then do
    let (text, rest) ← Quoted.read cs
    return (.scalar (.string (String.ofList text)) ⟨cs.length, rest.length⟩, rest)
  else do
    let (s, rest) ← readWord cs
    return (.scalar s ⟨cs.length, rest.length⟩, rest)

/-- Reads a value in which others may lie to a given depth. -/
def readValue : Nat → Reader Node
  | 0, cs => readScalar cs
  | depth + 1, cs =>
    match cs with
    | '[' :: inside => do
      let (items, rest) ← readItems (readValue depth) cs.length inside
      return (.array items ⟨cs.length, rest.length⟩, rest)
    | '\x7b' :: inside =>
      match skipBlanks inside with
      | '\x7d' :: rest => return (.table .inline [] (some ⟨cs.length, rest.length⟩), rest)
      | _ => do
        let (fields, rest) ← readFields (readValue depth) cs.length inside
        let entries ← Entries.assignAll fields []
        return (.table .inline entries (some ⟨cs.length, rest.length⟩), rest)
    | _ => readScalar cs

/-! ## Lines -/

/-- A line of a document. -/
inductive Line where
  | empty
  | assignment (a : Assignment)
  | header (h : Header)

/-- Reads a header, from behind its brackets on; `closing` are the brackets that end it. -/
def readHeader (start : Nat) (repeated : Bool) (cs : List Char) :
    Except Nat (Line × List Char) := do
  let ((way, key), rest) ← readKey maxParts cs
  let ((), rest) ← exactly ']' rest
  let ((), rest) ← if repeated then exactly ']' rest else .ok ((), rest)
  let header : Header := ⟨way, key, repeated, ⟨start, rest.length⟩⟩
  let ((), rest) ← readTail rest
  return (.header header, rest)

/-- Reads a line. -/
def readLine : Reader Line := fun cs =>
  match skipBlanks cs with
  | '[' :: '[' :: rest => readHeader (rest.length + 2) true rest
  | '[' :: rest => readHeader (rest.length + 1) false rest
  | start =>
    if start.head?.all fun c => c = '#' || c = '\n' || c = '\r' then do
      let ((), rest) ← readBreak (skipComment start)
      return (.empty, rest)
    else do
      let (a, rest) ← readAssignment (readValue maxDepth) start
      let ((), rest) ← readTail rest
      return (.assignment a, rest)

/-- Reads at most so many lines, to the end of the text. -/
def readLines : Nat → List Char → Except Nat (List Line)
  | _, [] => .ok []
  | 0, cs => .error cs.length
  | n + 1, c :: cs => do
    let (line, rest) ← readLine (c :: cs)
    return line :: (← readLines n rest)

/-- What stands in front of the first header of a list of lines, and the sections. -/
def gather : List Line → List Assignment × List Section
  | [] => ([], [])
  | .empty :: rest => gather rest
  | .assignment a :: rest =>
    let (front, sections) := gather rest
    (a :: front, sections)
  | .header h :: rest =>
    let (front, sections) := gather rest
    ([], ⟨h, front⟩ :: sections)

/-- A text without the mark of its byte order. -/
def skipMark : List Char → List Char
  | '\ufeff' :: rest => rest
  | rest => rest

/-- The entries of a document, or the number of characters that are left where it goes wrong. -/
def readDocument (cs : List Char) : Except Nat Entries := do
  let lines ← readLines cs.length (skipMark cs)
  let (front, sections) := gather lines
  Entries.ofSections front sections

end LiveQuery.Toml
