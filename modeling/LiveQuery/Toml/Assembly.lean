import LiveQuery.Toml.Basic

/-!
# Putting tables together

A document is a list of sections, each with a header, but for the first one, and with entries under
it. A key may be dotted, and so may a header: the tables on the way are made where they are missing.
Nothing may be defined twice. A table with a header of its own is closed for dotted keys; a table
that only lay on the way to other headers may still get its own, once; a table made by dotted keys
gets none. Of an array of tables, the way leads into the last one.
-/

namespace LiveQuery.Toml

/-- An entry as it is written: where it stands, as the number of characters that are left there,
the way to its table, its key and its value. -/
structure Assignment where
  place : Nat
  way : List Key
  key : Key
  value : Node

/-- The header of a section: the way to its table, its key, and whether it adds to an array. -/
structure Header where
  way : List Key
  key : Key
  repeated : Bool
  span : Span

/-- A section: its header and what is written under it. -/
structure Section where
  header : Header
  assignments : List Assignment

/-- The stretch of a section: from its header to the last value that has a place. -/
def Section.span (s : Section) : Span :=
  s.assignments.foldl
    (fun span a =>
      match a.value.span? with
      | some v => ⟨span.start, v.stop⟩
      | none => span)
    s.header.span

/-- Does something to the last item of a list. -/
def onLast (f : α → Except Nat α) (place : Nat) : List α → Except Nat (List α)
  | [] => .error place
  | [a] => return [← f a]
  | a :: rest => return a :: (← onLast f place rest)

/-- Nothing, if a condition holds, and else an error at a place. -/
def require (holds : Bool) (place : Nat) : Except Nat Unit :=
  if holds then .ok () else .error place

namespace Entries

/-- The entries with a value at a key that they do not have yet. -/
def add (place : Nat) (key : Key) (v : Node) (es : Entries) : Except Nat Entries :=
  match es.find? key.name with
  | none => .ok (es ++ [(key, v)])
  | some _ => .error place

/-- The entries with a value at the end of a way of dotted keys. -/
def assign (place : Nat) (key : Key) (v : Node) : List Key → Entries → Except Nat Entries
  | [], es => es.add place key v
  | k :: way, es =>
    match es.find? k.name with
    | none => do
      let inner ← assign place key v way []
      return es ++ [(k, .table .dotted inner none)]
    | some (.table origin inner span) => do
      require (origin = .dotted || (origin = .implied && !way.isEmpty)) place
      let inner ← assign place key v way inner
      return es.replace k.name (.table origin inner span)
    | some (.tables items) => do
      require (!way.isEmpty) place
      let items ← onLast (fun item => return (← assign place key v way item.1, item.2)) place items
      return es.replace k.name (.tables items)
    | some _ => .error place

/-- The entries with what a list of assignments adds to them. -/
def assignAll (assignments : List Assignment) (es : Entries) : Except Nat Entries :=
  assignments.foldlM (fun es a => es.assign a.place a.key a.value a.way) es

/-- Does something to the table at the end of the way to a header. -/
def descend (place : Nat) (f : Entries → Except Nat Entries) :
    List Key → Entries → Except Nat Entries
  | [], es => f es
  | k :: way, es =>
    match es.find? k.name with
    | none => do
      let inner ← descend place f way []
      return es ++ [(k, .table .implied inner none)]
    | some (.table origin inner span) => do
      require (origin ≠ .inline) place
      let inner ← descend place f way inner
      return es.replace k.name (.table origin inner span)
    | some (.tables items) => do
      let items ← onLast (fun item => return (← descend place f way item.1, item.2)) place items
      return es.replace k.name (.tables items)
    | some _ => .error place

/-- The entries with the table of a section. What only lay on the way to it becomes part of it. -/
def addTable (s : Section) (es : Entries) : Except Nat Entries := do
  let key := s.header.key
  match es.find? key.name with
  | none =>
    let inner ← assignAll s.assignments []
    return es ++ [(key, .table .header inner (some s.span))]
  | some (.table .implied inner _) =>
    let inner ← assignAll s.assignments inner
    return es.erase key.name ++ [(key, .table .header inner (some s.span))]
  | some _ => .error s.header.span.start

/-- The entries with one more table in the array of a section. -/
def addToArray (s : Section) (es : Entries) : Except Nat Entries := do
  let key := s.header.key
  match es.find? key.name with
  | none =>
    let inner ← assignAll s.assignments []
    return es ++ [(key, .tables [(inner, s.span)])]
  | some (.tables items) =>
    let inner ← assignAll s.assignments []
    return es.replace key.name (.tables (items ++ [(inner, s.span)]))
  | some _ => .error s.header.span.start

/-- The entries with a section. -/
def addSection (es : Entries) (s : Section) : Except Nat Entries :=
  es.descend s.header.span.start (if s.header.repeated then addToArray s else addTable s)
    s.header.way

/-- The entries of a document: those in front of the first header, and the sections. -/
def ofSections (front : List Assignment) (sections : List Section) : Except Nat Entries := do
  let es ← assignAll front []
  sections.foldlM addSection es

end Entries
end LiveQuery.Toml
