import LiveQuery.Json.Reader

/-!
# Decoding a laid-out JSON text

A decoder takes a value out of a `Json.Doc`, from the left, and fails with the first error it
meets. `Doc.value` takes any value, `Doc.skip` passes over one, and the others want a value of one
kind; an `OpenRecord` is taken out of an object that may have members of any name. The `depth` of a
decoder is how many levels of brackets it may still go down, and one more.
-/

namespace LiveQuery.Json

/-- Levels of brackets a text may have, and one more. -/
def depthLimit : Nat := 128

/-- The depth inside a bracket that starts at a place. -/
def descend (depth : Nat) (start : Position) : Except Error Nat :=
  if depth ≤ 1 then .error ⟨.tooDeep, start.next⟩ else .ok (depth - 1)

namespace Stop

/-- The end of the items, for a reader that wants the next one. -/
def endItems : Stop → Except Error Position
  | closed after => .ok after
  | cut why p => .error ⟨why.listFault, p⟩
  | noKey p _ => .error ⟨.keyNotString, p⟩
  | badKey error _ => .error error
  | inside => .error ⟨.eofList, .start⟩

/-- The end of the members, for a reader that wants the next one. -/
def endMembers : Stop → Except Error Position
  | closed after => .ok after
  | cut why p => .error ⟨why.objectFault, p⟩
  | noKey p _ => .error ⟨.keyNotString, p⟩
  | badKey error _ => .error error
  | inside => .error ⟨.eofObject, .start⟩

/-- The end of the items, for a reader that wants no more of them. -/
def close : Stop → Except Error Position
  | cut why p => .error ⟨why.closeFault, p⟩
  | stop => stop.endItems

/-- The end of the items, for a reader that passes over them. -/
def skipItems : Stop → Except Error Unit
  | cut why p => .error ⟨why.skippedListFault, p⟩
  | _ => .ok ()

/-- The end of the members, for a reader that passes over them. -/
def skipMembers : Stop → Except Error Unit
  | cut why p => .error ⟨why.skippedObjectFault, p⟩
  | noKey p _ => .error ⟨.keyNotString, p⟩
  | badKey _ skipped => .error skipped
  | _ => .ok ()

end Stop

namespace Doc

mutual
/-- The value laid out. Of two members with one key the later one counts. -/
def value (depth : Nat) : Doc → Except Error Json
  | fault e => .error e
  | broken _ _ e _ => .error e
  | null _ _ => .ok .null
  | bool b _ _ => .ok (.bool b)
  | number n _ _ => return .number (← n)
  | string s _ _ => return .string (← s)
  | array start items stop => do
    let depth ← descend depth start
    let values ← itemValues depth items
    let _ ← stop.endItems
    return .array values
  | object start members stop => do
    let depth ← descend depth start
    let values ← memberValues depth members
    let _ ← stop.endMembers
    return .obj values

/-- The values of items. -/
def itemValues (depth : Nat) : List (Position × Doc) → Except Error (List Json)
  | [] => .ok []
  | (_, d) :: rest => do
    let v ← value depth d
    let vs ← itemValues depth rest
    return v :: vs

/-- The names and values of members. -/
def memberValues (depth : Nat) : List (Key × Doc) → Except Error (List (String × Json))
  | [] => .ok []
  | (k, d) :: rest => do
    let name ← k.name
    let v ← value depth d
    let vs ← memberValues depth rest
    return (name, v) :: vs
end

mutual
/-- Passes over a value: only where the text breaks off is there an error. -/
def skip : Doc → Except Error Unit
  | fault e => .error e
  | broken _ _ _ e => .error e
  | array _ items stop => do
    skipItems items
    stop.skipItems
  | object _ members stop => do
    skipMembers members
    stop.skipMembers
  | _ => .ok ()

/-- Passes over items. -/
def skipItems : List (Position × Doc) → Except Error Unit
  | [] => .ok ()
  | (_, d) :: rest => do
    skip d
    skipItems rest

/-- Passes over members. -/
def skipMembers : List (Key × Doc) → Except Error Unit
  | [] => .ok ()
  | (_, d) :: rest => do
    skip d
    skipMembers rest
end

/-- Refuses a value where `expected` should stand. -/
def mismatch (expected : String) (d : Doc) : Except Error α := do
  let (found, p) ← d.found
  .error ⟨.invalidType found expected, p⟩

/-- A natural number up to a bound. -/
def natural (bound : Nat) (expected : String) : Doc → Except Error Nat
  | number (.ok (.int n)) _ after =>
    if 0 ≤ n ∧ n ≤ bound then .ok n.toNat
    else .error ⟨.invalidValue (.number (.int n)) expected, after⟩
  | d => d.mismatch expected

/-- A natural number of 32 bits. -/
def u32 (d : Doc) : Except Error UInt32 := return (← natural (UInt32.size - 1) "u32" d).toUInt32

/-- A natural number of 64 bits. -/
def u64 : Doc → Except Error Nat := natural (UInt64.size - 1) "u64"

/-- A string. -/
def text : Doc → Except Error String
  | string s _ _ => s
  | d => d.mismatch "a string"

/-- A truth value. -/
def truth : Doc → Except Error Bool
  | bool b _ _ => .ok b
  | d => d.mismatch "a boolean"

/-- A value that may be missing: null stands for none. -/
def optional (decode : Doc → Except Error α) : Doc → Except Error (Option α)
  | null _ _ => .ok none
  | d => return some (← decode d)

/-- A list of strings. -/
def texts (depth : Nat) : Doc → Except Error (List String)
  | array start items stop => do
    let _ ← descend depth start
    let values ← items.mapM fun item => item.2.text
    let _ ← stop.endItems
    return values
  | d => d.mismatch "a sequence"

/-- Folds the members of an object. `take` gets the name of a member, the place to report if the
name is unwelcome, and its value. The result comes with the place behind the object. -/
def foldMembers (take : σ → String → Position → Doc → Except Error σ) :
    σ → List (Key × Doc) → Stop → Except Error (σ × Position)
  | s, [], stop => return (s, ← stop.endMembers)
  | s, (k, d) :: rest, stop => do
    let s ← take s (← k.name) k.settled d
    foldMembers take s rest stop

/-- A field that may be given once. -/
def once (name : String) (p : Position) (held : Option α) (value : Except Error α) :
    Except Error (Option α) :=
  match held with
  | some _ => .error ⟨.duplicateField name, p⟩
  | none => return some (← value)

/-- The items of an array used as the fields of a record, `count` of them at most. Fewer are fine as
long as the array ends properly; one too many is refused where it is looked at. -/
def endFields (count : Nat) (items : List (Position × Doc)) (stop : Stop) :
    Except Error Position :=
  match items.drop count with
  | (p, _) :: _ => .error ⟨.trailingCharacters, p⟩
  | [] => if items.length < count then stop.endItems else stop.close

/-- A record of one field: an object that holds the field once, among members that are passed over,
or an array of nothing but its value. -/
def single (depth : Nat) (record field : String) (decode : Nat → Doc → Except Error α) :
    Doc → Except Error α
  | object start members stop => do
    let depth ← descend depth start
    let (held, after) ← foldMembers (take depth) none members stop
    match held with
    | some a => return a
    | none => .error ⟨.missingField field, after⟩
  | array start items stop => do
    let depth ← descend depth start
    match items with
    | (_, d) :: _ =>
      let a ← decode depth d
      let _ ← endFields 1 items stop
      return a
    | [] =>
      let after ← stop.endItems
      .error ⟨.invalidLength 0 s!"struct {record} with 1 element", after⟩
  | d => d.mismatch s!"struct {record}"
where
  /-- One member of the object. -/
  take (depth : Nat) (held : Option α) (name : String) (p : Position) (d : Doc) :
      Except Error (Option α) :=
    if name = field then once name p held (decode depth d)
    else do
      d.skip
      return held

/-- Nothing: null. -/
def unit : Doc → Except Error Unit
  | null _ _ => .ok ()
  | d => d.mismatch "unit"

/-- The value that a name stands for. -/
def pick (variants : List (String × α)) (name : String) (after : Position) : Except Error α :=
  match variants.lookup name with
  | some a => .ok a
  | none => .error ⟨.unknownVariant name (variants.map Prod.fst), after⟩

/-- Where a value would begin that is no name. -/
def start? : Doc → Option Position
  | broken start false _ _ => some start
  | null start _ => some start
  | bool _ start _ => some start
  | number _ start _ => some start
  | array start _ _ => some start
  | _ => none

/-- One of several names: a string, or an object with the name as its only key and null as its
value. -/
def variant (depth : Nat) (variants : List (String × α)) : Doc → Except Error α
  | string name _ after => do pick variants (← name) after
  | object start members stop => do
    let _ ← descend depth start
    match members, stop with
    | (k, d) :: rest, stop =>
      let a ← pick variants (← k.name) k.after
      d.unit
      match rest, stop with
      | [], .closed _ => return a
      | [], .cut .ended p => .error ⟨.eofObject, p⟩
      | _, _ => .error ⟨.expectedValue, k.done⟩
    | [], .closed after => .error ⟨.expectedValue, after⟩
    | [], .noKey _ there => do
      let (found, p) ← there
      .error ⟨.invalidType found "variant identifier", p⟩
    | [], .badKey error _ => .error error
    | [], .cut _ p => .error ⟨.eofValue, p⟩
    | [], .inside => .error ⟨.eofValue, start⟩
  | d =>
    match d.start? with
    | some start => .error ⟨.expectedValue, start.next⟩
    | none => d.mismatch "variant identifier"

/-- What a decoder makes of a whole text: behind the value only blanks may follow. -/
def decodeAll (decode : Doc → Except Error α) (text : List Glyph) : Except Error α := do
  let (doc, next) := ofGlyphs text
  let a ← decode doc
  match next with
  | none => return a
  | some c =>
    let c := c.skipBlanks
    if c.rest.isEmpty then return a else .error ⟨.trailingCharacters, c.peek⟩

end Doc

/-- A record that keeps the members it has no field for. -/
structure OpenRecord (σ φ : Type) where
  /-- What should stand in the text, in the words of an error. -/
  expected : String
  /-- The field with a name. -/
  field? : String → Option φ
  /-- The record without members. -/
  empty : σ
  /-- Takes one field out of a text. -/
  setField : Nat → σ → Doc → φ → Except Error σ
  /-- Keeps a member that is no field. -/
  keep : String → Json → σ → σ

namespace OpenRecord

variable {σ φ : Type} [DecidableEq φ] (record : OpenRecord σ φ)

/-- One member of the object: a field, given for the first time, or anything else. -/
def take (depth : Nat) (held : List φ × σ) (name : String) (p : Position) (d : Doc) :
    Except Error (List φ × σ) :=
  match record.field? name with
  | some f =>
    if f ∈ held.1 then .error ⟨.duplicateField name, p⟩
    else return (f :: held.1, ← record.setField depth held.2 d f)
  | none => return (held.1, record.keep name (← d.value depth) held.2)

/-- Takes the record out of a text. -/
def ofDoc (depth : Nat) : Doc → Except Error σ
  | .object start members stop => do
    let depth ← descend depth start
    let (held, _) ← Doc.foldMembers (record.take depth) ([], record.empty) members stop
    return held.2
  | d => d.mismatch record.expected

end OpenRecord

/-- The value of a whole text. -/
def ofGlyphs? (text : List Glyph) : Except Error Json := Doc.decodeAll (Doc.value depthLimit) text

/-- The value of a whole text. -/
def parse (text : String) : Except Error Json := ofGlyphs? (Glyph.ofString text)

end LiveQuery.Json
