import LiveQuery.Proofs.Success
import LiveQuery.Toml.Decode

/-!
# Records value by value

A record is folded from the parts of a node: the entries of a table by their names, or the items of
an array by the order of the fields (`Node.takes_of_record`). So what one field sets can be said
apart from all others: it is taken out of the part with its name, or else it is what it was by
default (`Node.eq_of_record`).
-/

namespace LiveQuery.Toml.Node

variable {σ α β : Type}

/-- A field of a record: its name, and what becomes of a record that is given a value for it. -/
abbrev Field (σ : Type) := String × (Span → Node → σ → Except Error σ)

/-- The values that a node has for a record, by the names of its fields. -/
def parts (names : List String) (v : Node) : List (String × Node) :=
  match v.entries? default, v.items? with
  | some entries, _ => entries.map fun e => (e.1, e.2.2)
  | none, some items => names.zip items
  | none, none => []

/-- The last value with a name. -/
def last? (name : String) : List (String × Node) → Option Node
  | [] => none
  | (n, v) :: rest => (last? name rest).or (if n = name then some v else none)

/-- The value that a node has for a field of a record. -/
def part? (names : List String) (name : String) (v : Node) : Option Node :=
  last? name (v.parts names)

/-- What a decoder takes out of a value, if it is of the right kind. -/
def taken? (decode : Span → Node → Except Error α) (v : Node) : Option α :=
  (decode default v).toOption

/-- A record is given values one by one; one whose name is no field's is passed over. -/
inductive Takes (fields : List (Field σ)) : σ → List (String × Node) → σ → Prop
  | nil {s : σ} : Takes fields s [] s
  | field {s s' t : σ} {name : String} {near : Span} {v : Node} {rest : List (String × Node)}
      {set : Span → Node → σ → Except Error σ} (hfield : (name, set) ∈ fields)
      (hset : set near v s = .ok s') (hrest : Takes fields s' rest t) :
    Takes fields s ((name, v) :: rest) t
  | other {s t : σ} {name : String} {v : Node} {rest : List (String × Node)}
      (hname : name ∉ fields.map Prod.fst) (hrest : Takes fields s rest t) :
    Takes fields s ((name, v) :: rest) t

theorem takes_of_entries {fields : List (Field σ)} {entries : List (String × Span × Node)}
    {s t : σ}
    (h : entries.foldlM
      (fun s e =>
        match fields.lookup e.1 with
        | some set => set e.2.1 e.2.2 s
        | none => .ok s) s = .ok t) :
    Takes fields s (entries.map fun e => (e.1, e.2.2)) t := by
  induction entries generalizing s with
  | nil =>
    cases h
    exact .nil
  | cons e rest ih =>
    rw [List.foldlM_cons] at h
    obtain ⟨s', hset, h⟩ := bind_eq_ok.mp h
    split at hset
    · rename_i set hlookup
      obtain ⟨before, after, rfl, -⟩ := List.lookup_eq_some_iff.mp hlookup
      exact .field (List.mem_append_right _ (List.mem_cons_self ..)) hset (ih h)
    · rename_i hlookup
      cases hset
      refine .other ?_ (ih h)
      intro hmem
      obtain ⟨f, hf, hname⟩ := List.mem_map.mp hmem
      have hne := List.lookup_eq_none_iff.mp hlookup f hf
      simp [hname] at hne

theorem takes_of_items {fields : List (Field σ)} {near : Span} {given : List (Field σ)}
    (hgiven : ∀ f ∈ given, f ∈ fields) {items : List Node} {s t : σ}
    (h : takeItems near (given.map Prod.snd) items s = .ok t) :
    Takes fields s ((given.map Prod.fst).zip items) t := by
  induction given generalizing items s with
  | nil =>
    cases h
    exact .nil
  | cons f given ih =>
    cases items with
    | nil =>
      cases h
      exact .nil
    | cons v items =>
      obtain ⟨hf, hgiven⟩ := List.forall_mem_cons.mp hgiven
      obtain ⟨s', hset, h⟩ := bind_eq_ok.mp h
      exact .field hf hset (ih hgiven h)

/-- The place to report does not matter for what the parts are. -/
theorem entries?_near {near : Span} {v : Node} {entries : List (String × Span × Node)}
    (h : v.entries? near = some entries) :
    ∃ entries', v.entries? default = some entries' ∧
      (entries'.map fun e => (e.1, e.2.2)) = entries.map fun e => (e.1, e.2.2) := by
  unfold entries? at h ⊢
  split at h
  · cases h
    exact ⟨_, rfl, rfl⟩
  · cases h
    exact ⟨_, rfl, rfl⟩
  · cases h

theorem entries?_eq_none_near {near : Span} {v : Node} (h : v.entries? near = none) :
    v.entries? default = none := by
  unfold entries? at h ⊢
  split at h
  · cases h
  · cases h
  · rfl

/-- A record that is read has been given the parts of the node. -/
theorem takes_of_record {title : String} {fields : List (Field σ)} {s t : σ} {near : Span} {v : Node}
    (h : record title fields s near v = .ok t) :
    Takes fields s (v.parts (fields.map Prod.fst)) t := by
  unfold record at h
  split at h
  · rename_i entries items hentries
    obtain ⟨entries', hentries', hsame⟩ := entries?_near hentries
    have htakes := takes_of_entries h
    rw [← hsame] at htakes
    simpa only [parts, hentries'] using htakes
  · rename_i items hentries hitems
    have htakes := takes_of_items (fun f (hf : f ∈ fields) => hf) h
    simpa only [parts, entries?_eq_none_near hentries, hitems] using htakes
  · cases h

/-! ## One value of a record -/

/-- What a field does to one value of its record: the field with the name takes it out of what it is
given, any other field leaves it as it is. -/
def Sets (name : String) (take : Node → Option β) (value : σ → β) (f : Field σ) : Prop :=
  ∀ ⦃near v s s'⦄, f.2 near v s = .ok s' →
    (f.1 = name → take v = some (value s')) ∧ (f.1 ≠ name → value s' = value s)

/-- The value of a field is what it was, if the record is given nothing for it, and else what is
taken out of the last thing that it is given. -/
theorem Takes.value {fields : List (Field σ)} {name : String} {take : Node → Option β}
    {value : σ → β} (hfields : ∀ f ∈ fields, Sets name take value f)
    (hname : name ∈ fields.map Prod.fst) {s t : σ} {given : List (String × Node)}
    (h : Takes fields s given t) :
    (last? name given = none ∧ value t = value s) ∨
      ∃ v, last? name given = some v ∧ take v = some (value t) := by
  induction h with
  | nil => exact .inl ⟨rfl, rfl⟩
  | @field s s' t n near v rest set hfield hset hrest ih =>
    obtain ⟨hmine, hother⟩ := hfields _ hfield hset
    rcases ih with ⟨hnone, hvalue⟩ | ⟨w, hw, htake⟩
    · by_cases hn : n = name
      · exact .inr ⟨v, by simp [last?, hnone, hn], hvalue ▸ hmine hn⟩
      · exact .inl ⟨by simp [last?, hnone, hn], hvalue.trans (hother hn)⟩
    · exact .inr ⟨w, by simp [last?, hw], htake⟩
  | @other s t n v rest hnot hrest ih =>
    have hne : n ≠ name := fun he => hnot (he ▸ hname)
    rwa [last?, if_neg hne, Option.or_none]

/-- The value of a field is taken out of the part of the node with its name, or else it is what it
is by default. -/
theorem eq_of_record (name : String) (take : Node → Option β) (value : σ → β) {title : String}
    {fields : List (Field σ)} {s t : σ} {near : Span} {v : Node}
    (h : record title fields s near v = .ok t) (hname : name ∈ fields.map Prod.fst)
    (hfields : ∀ f ∈ fields, Sets name take value f) :
    value t = ((v.part? (fields.map Prod.fst) name).bind take).getD (value s) := by
  unfold part?
  rcases (takes_of_record h).value hfields hname with ⟨hnone, hvalue⟩ | ⟨w, hw, htake⟩
  · rw [hnone, hvalue]
    rfl
  · rw [hw, Option.bind_some, htake]
    rfl

/-! ## Fields that put what they decode into the record -/

/-- A decoder succeeds wherever it is told that its value stands. -/
def Placeless (decode : Span → Node → Except Error α) : Prop :=
  ∀ ⦃near near' v a⦄, decode near v = .ok a → decode near' v = .ok a

theorem Placeless.taken? {decode : Span → Node → Except Error α} (hdecode : Placeless decode)
    {near : Span} {v : Node} {a : α} (h : decode near v = .ok a) : v.taken? decode = some a := by
  rw [Node.taken?, hdecode h]
  rfl

theorem placeless_string : Placeless string := by
  intro near near' v a h
  unfold string at h ⊢
  split at h
  · exact h
  · cases h

theorem placeless_boolean : Placeless boolean := by
  intro near near' v a h
  unfold boolean at h ⊢
  split at h
  · exact h
  · cases h

theorem placeless_natural : Placeless natural := by
  intro near near' v a h
  unfold natural at h ⊢
  split at h
  · split at h
    · rename_i hn
      simpa [hn] using h
    · cases h
  · cases h

theorem placeless_vacant : Placeless vacant := by
  intro near near' v a h
  unfold vacant at h ⊢
  split at h
  · exact h
  · exact h
  · cases h
  · cases h
  · cases h
  · cases h

theorem placeless_variant (variants : List (String × α)) : Placeless (variant variants) := by
  intro near near' v a h
  cases v with
  | scalar value span =>
    cases value with
    | string s => exact h
    | integer | real | boolean | datetime => cases h
  | table origin entries span =>
    match entries with
    | [] => cases h
    | [(key, inner)] =>
      obtain ⟨b, hb, h⟩ := bind_eq_ok.mp h
      obtain ⟨⟨⟩, hvacant, h⟩ := bind_eq_ok.mp h
      refine bind_eq_ok.mpr ⟨b, hb, bind_eq_ok.mpr ⟨(), placeless_vacant hvacant, h⟩⟩
    | _ :: _ :: _ => cases h
  | array | tables => cases h

theorem placeless_strings : Placeless strings := by
  intro near near' v a h
  cases v with
  | scalar value span =>
    cases value with
    | datetime => exact h
    | string | integer | real | boolean => cases h
  | table => exact h
  | array | tables => cases h

variable {name n : String} {take : Node → Option β} {value : σ → β}
  {decode : Span → Node → Except Error α} {put : σ → α → σ}

theorem sets_self
    (htake : ∀ ⦃near v a⦄, decode near v = .ok a → ∀ s, take v = some (value (put s a))) :
    Sets name take value (name, fun near v s => decode near v >>= fun a => pure (put s a)) := by
  intro near v s s' h
  obtain ⟨a, ha, rfl⟩ := bind_pure_eq_ok.mp h
  exact ⟨fun _ => htake ha s, fun hne => absurd rfl hne⟩

theorem sets_other (hne : n ≠ name) (hput : ∀ s a, value (put s a) = value s) :
    Sets name take value (n, fun near v s => decode near v >>= fun a => pure (put s a)) := by
  intro near v s s' h
  obtain ⟨a, -, rfl⟩ := bind_pure_eq_ok.mp h
  exact ⟨fun he => absurd he hne, fun _ => hput s a⟩

end LiveQuery.Toml.Node
