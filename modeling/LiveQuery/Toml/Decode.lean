import LiveQuery.Toml.Error

/-!
# Taking values out of a TOML document

Each decoder takes one kind of value. It is told the place to report for a value that stands nowhere
itself. A record is taken from a table by the names of its fields, of which unknown ones are passed
over, or from an array by their order; what is missing keeps the value it has by default. A date
or a time counts as a table with one entry of an odd name.
-/

namespace LiveQuery.Toml

namespace Node

/-- Where a value stands, or else a given place. -/
def spanOr (near : Span) (v : Node) : Span := v.span?.getD near

/-- A value of the wrong type. -/
def mismatch (expected : String) (near : Span) (v : Node) : Except Error α :=
  .error ⟨.invalidType v.found expected, v.spanOr near⟩

/-- A text. -/
def string (near : Span) (v : Node) : Except Error String :=
  match v with
  | .scalar (.string s) _ => .ok s
  | _ => v.mismatch "a string" near

/-- A truth value. -/
def boolean (near : Span) (v : Node) : Except Error Bool :=
  match v with
  | .scalar (.boolean b) _ => .ok b
  | _ => v.mismatch "a boolean" near

/-- A natural number. -/
def natural (near : Span) (v : Node) : Except Error Nat :=
  match v with
  | .scalar (.integer n) _ =>
    if 0 ≤ n then .ok n.toNat else .error ⟨.invalidValue (.integer n) "u64", v.spanOr near⟩
  | _ => v.mismatch "u64" near

/-- The name under which a date or a time is an entry. -/
def datetimeName : String := "$__toml_private_datetime"

/-- The entries of a table, each with the place to report for it. -/
def entries? (near : Span) (v : Node) : Option (List (String × Span × Node)) :=
  match v with
  | .table _ entries _ => some (entries.map fun e => (e.1.name, e.2.spanOr e.1.span, e.2))
  | .scalar (.datetime d) span =>
    some [(datetimeName, v.spanOr near, .scalar (.string d.text) span)]
  | _ => none

/-- The items of an array. -/
def items? (v : Node) : Option (List Node) :=
  match v with
  | .array items _ => some items
  | .tables items => some (items.map fun item => .table .header item.1 (some item.2))
  | _ => none

/-- Gives fields of a record the items of an array, in order; items too many are not looked at. -/
def takeItems (near : Span) :
    List (Span → Node → σ → Except Error σ) → List Node → σ → Except Error σ
  | [], _, s => .ok s
  | _, [], s => .ok s
  | field :: fields, v :: vs, s => do takeItems near fields vs (← field (v.spanOr near) v s)

/-- A record, from the decoders of its fields by their names and what it is by default. -/
def record (name : String) (fields : List (String × (Span → Node → σ → Except Error σ)))
    (default : σ) (near : Span) (v : Node) : Except Error σ :=
  match v.entries? near, v.items? with
  | some entries, _ =>
    entries.foldlM
      (fun s e =>
        match fields.lookup e.1 with
        | some field => field e.2.1 e.2.2 s
        | none => .ok s)
      default
  | none, some items => takeItems (v.spanOr near) (fields.map Prod.snd) items default
  | none, none => v.mismatch s!"struct {name}" near

/-- The texts of a table, by their names. -/
def strings (near : Span) (v : Node) : Except Error (List (String × String)) :=
  match v.entries? near with
  | some entries => entries.mapM fun e => return (e.1, ← string e.2.1 e.2.2)
  | none => v.mismatch "a map" near

/-- The variant with a name. -/
def ofName (variants : List (String × α)) (name : String) (span : Span) : Except Error α :=
  match variants.lookup name with
  | some a => .ok a
  | none => .error ⟨.unknownVariant name (variants.map Prod.fst), span⟩

/-- Refuses what is neither an empty table nor an empty array. -/
def vacant (near : Span) (v : Node) : Except Error Unit :=
  match v with
  | .table _ [] _ | .array [] _ => .ok ()
  | .table _ _ _ | .array _ _ => .error ⟨.notEmptyTable, v.spanOr near⟩
  | .tables _ => .error ⟨.notEmptyArray, v.spanOr near⟩
  | .scalar _ _ => .error ⟨.notTable v.kind, v.spanOr near⟩

/-- One of several names: a text, or a table with that name and nothing under it. -/
def variant (variants : List (String × α)) (near : Span) (v : Node) : Except Error α :=
  match v with
  | .scalar (.string s) span => ofName variants s span
  | .table _ entries _ =>
    match entries with
    | [] => .error ⟨.noVariant, v.spanOr near⟩
    | [(key, inner)] => do
      let a ← ofName variants key.name key.span
      vacant (v.spanOr near) inner
      return a
    | _ => .error ⟨.manyVariants, v.spanOr near⟩
  | _ => .error ⟨.neitherStringNorTable, v.spanOr near⟩

end Node

/-- What a decoder takes out of the table that a whole document is. -/
def decode (decoder : Span → Node → Except Error α) (document : String) : Except Error α :=
  let cs := document.toList
  match readDocument cs with
  | .error left => .error ⟨.malformed, left, left⟩
  | .ok entries => decoder ⟨cs.length, 0⟩ (.table .header entries none)

end LiveQuery.Toml
