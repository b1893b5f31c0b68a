import LiveQuery.Proofs.Filter.Decoding
import LiveQuery.Proofs.Json.Layout

/-!
# Numbers beside a body

The command line gives a filter as a JSON text, and numbers beside it that override what the text
says. What a decoded filter keeps besides its fields never has the name of a field
(`Filter.apart_of_ofDoc`), so a field that is set anew changes the encoded filter at its own key and
nowhere else (`Record.ofMembers_override`). The numbers neither mend nor break a body:
`FilterFlags.filter?_overrides`.
-/

namespace LiveQuery

open Json (Members Doc find?)

/-! ## Members with another value at a key -/

/-- The members with another value at a key, if there is another one. -/
def Json.override (key : String) (value : Option Json) (ms : Members) : Members :=
  match value with
  | some v => insert key v ms
  | none => ms

theorem Json.find?_override (key k : String) (value : Option Json) (ms : Members) :
    find? k (override key value ms) =
      if key = k then value.or (find? k ms) else find? k ms := by
  cases value with
  | some v => exact find?_insert key k v ms
  | none => exact (ite_self _).symm

theorem Json.sorted_override (key : String) (value : Option Json) {ms : Members}
    (h : Sorted ms) : Sorted (override key value ms) := by
  cases value with
  | some v => exact sorted_insert key v h
  | none => exact h

namespace Record

variable {σ φ : Type} {R : Record σ φ} {s s' : σ}

/-- A field is set anew, or stays as it is, and nothing else changes. -/
theorem held_override {f : φ} {value : Option Json} (hextra : R.extra s' = R.extra s)
    (hget : R.get? s' f = value.or (R.get? s f)) (hother : ∀ g, g ≠ f → R.get? s' g = R.get? s g)
    (k : String) :
    R.held s' k = if R.text f = k then value.or (R.held s k) else R.held s k := by
  by_cases hk : ∃ g, R.text g = k
  · obtain ⟨g, rfl⟩ := hk
    rw [held_text, held_text]
    by_cases hg : g = f
    · subst hg
      rw [if_pos rfl, hget]
    · have hne : R.text f ≠ R.text g := fun he => hg (R.text_injective he).symm
      rw [if_neg hne, hother g hg]
  · have hne : ∀ g, R.text g ≠ k := fun g hg => hk ⟨g, hg⟩
    rw [if_neg (hne f), held_of_ne s' hne, held_of_ne s hne, hextra]

theorem ofMembers_override (h : R.Apart s) {f : φ} {value : Option Json}
    (hextra : R.extra s' = R.extra s) (hget : R.get? s' f = value.or (R.get? s f))
    (hother : ∀ g, g ≠ f → R.get? s' g = R.get? s g) :
    Json.ofMembers (R.members s') =
      Json.override (R.text f) value (Json.ofMembers (R.members s)) := by
  have hsorted := Json.sorted_override (R.text f) value (Json.sorted_ofMembers (R.members s))
  apply Json.eq_of_find? (Json.sorted_ofMembers _) hsorted
  intro k
  rw [find?_members (h.congr hextra), held_override hextra hget hother, Json.find?_override,
    find?_members h]

end Record

/-! ## Decoded filters -/

namespace Filter

variable {depth : Nat} {f : Filter}

/-- What a decoded filter keeps besides its fields has no name of a field. -/
theorem apart_of_ofDoc {d : Doc} (h : ofDoc depth d = .ok f) : record.Apart f :=
  readBy.apart_of_ofDoc h

theorem toJson_eq (f : Filter) : f.toJson = .object (Json.ofMembers (record.members f)) := rfl

/-- A number as the value of a field. -/
def number (n : UInt32) : Json := .nat n.toNat

end Filter

/-! ## The flags -/

namespace FilterFlags

open LiveQuery.Filter (number)

/-- The filter that the body asks for, whatever the numbers say. -/
def bodyFilter? (flags : FilterFlags) : Except Json.Error Filter :=
  match flags.body with
  | some text => Filter.parse text
  | none => .ok .empty

/-- The filter with the numbers of the flags. -/
def applied (flags : FilterFlags) (f : Filter) : Filter :=
  { f with limit := flags.limit <|> f.limit, offset := flags.offset <|> f.offset }

theorem filter?_eq (flags : FilterFlags) :
    flags.filter? = flags.bodyFilter? >>= fun f => pure (flags.applied f) := by
  unfold filter? bodyFilter?
  cases flags.body with
  | none => rfl
  | some text => rfl

/-- The numbers do not fail. -/
theorem filter?_eq_error_iff {flags : FilterFlags} {e : Json.Error} :
    flags.filter? = .error e ↔ flags.bodyFilter? = .error e := by
  rw [filter?_eq]
  cases flags.bodyFilter? with
  | error e' => exact Iff.rfl
  | ok f =>
    constructor
    · intro h
      cases h
    · intro h
      cases h

theorem apart_of_bodyFilter? {flags : FilterFlags} {f : Filter} (h : flags.bodyFilter? = .ok f) :
    Filter.record.Apart f := by
  unfold bodyFilter? at h
  split at h
  · exact Filter.apart_of_ofDoc (Doc.ok_of_decodeAll h)
  · cases h
    exact .nil rfl

theorem orElse_map {number : UInt32 → Json} (a b : Option UInt32) :
    (a <|> b).map number = (a.map number).or (b.map number) := by
  cases a <;> rfl

/-- The numbers override the members of their names in what is encoded. -/
theorem ofMembers_applied (flags : FilterFlags) {f : Filter} (h : Filter.record.Apart f) :
    Json.ofMembers (Filter.record.members (flags.applied f)) =
      Json.override "offset" (flags.offset.map number)
        (Json.override "limit" (flags.limit.map number)
          (Json.ofMembers (Filter.record.members f))) := by
  let limited : Filter := { f with limit := flags.limit <|> f.limit }
  have hlimited : Json.ofMembers (Filter.record.members limited) =
      Json.override "limit" (flags.limit.map number)
        (Json.ofMembers (Filter.record.members f)) := by
    refine Record.ofMembers_override (f := Filter.Field.limit) h rfl (orElse_map ..) ?_
    intro g hg
    cases g with
    | limit => exact absurd rfl hg
    | offset | sort | flows | flowRuns | taskRuns | deployments => rfl
  have hapart : Filter.record.Apart limited := h.congr rfl
  rw [← hlimited]
  refine Record.ofMembers_override (f := Filter.Field.offset) hapart rfl (orElse_map ..) ?_
  intro g hg
  cases g with
  | offset => exact absurd rfl hg
  | limit | sort | flows | flowRuns | taskRuns | deployments => rfl

/-- The filter of the flags fails exactly if there is a body and it does not decode, and with the
error of the body. Otherwise it is encoded as what the body says, the empty object without a body,
with each number that is given at the key of its name; at every other key, and where no number is
given, there is what the body says. -/
theorem filter?_overrides (flags : FilterFlags) :
    (∀ e, flags.filter? = .error e ↔
      ∃ text, flags.body = some text ∧ Filter.parse text = .error e) ∧
    (flags.body = none → flags.bodyFilter? = .ok .empty ∧ Filter.empty.toJson = .object []) ∧
    ∀ base, flags.bodyFilter? = .ok base →
      ∃ ms ns f, base.toJson = .object ms ∧ flags.filter? = .ok f ∧ f.toJson = .object ns ∧
        ns = Json.override "offset" (flags.offset.map number)
          (Json.override "limit" (flags.limit.map number) ms) ∧
        find? "limit" ns = (flags.limit.map number).or (find? "limit" ms) ∧
        find? "offset" ns = (flags.offset.map number).or (find? "offset" ms) ∧
        ∀ k, k ≠ "limit" → k ≠ "offset" → find? k ns = find? k ms := by
  refine ⟨?_, ?_, ?_⟩
  · intro e
    rw [filter?_eq_error_iff]
    unfold bodyFilter?
    cases flags.body with
    | none => simp
    | some text => simp
  · intro hbody
    refine ⟨?_, rfl⟩
    rw [bodyFilter?, hbody]
  · intro base hbase
    have hms := ofMembers_applied flags (apart_of_bodyFilter? hbase)
    refine ⟨_, _, flags.applied base, base.toJson_eq, ?_, Filter.toJson_eq _, hms, ?_, ?_, ?_⟩
    · rw [filter?_eq, hbase, ok_bind]
      rfl
    · rw [hms, Json.find?_override, if_neg (by decide), Json.find?_override, if_pos rfl]
    · rw [hms, Json.find?_override, if_pos rfl, Json.find?_override, if_neg (by decide)]
    · intro k hlimit hoffset
      rw [hms, Json.find?_override, if_neg (Ne.symm hoffset), Json.find?_override,
        if_neg (Ne.symm hlimit)]

/-- A body with the key of a number at the top and further down, and both a field and another member
besides; the number for the offset is left out. -/
def limited : FilterFlags where
  body := some
    "\x7b\"limit\":5,\"flows\":\x7b\"limit\":1\x7d,\"x\":\x7b\"limit\":2\x7d,\"offset\":7\x7d"
  limit := some 20
  offset := none

theorem filter?_overrides_limited :
    ∃ base f ms ns, limited.bodyFilter? = .ok base ∧ base.limit = some 5 ∧
      base.toJson = .object ms ∧ limited.filter? = .ok f ∧ f.toJson = .object ns ∧
      find? "limit" ns = some (number 20) ∧ find? "offset" ns = find? "offset" ms ∧
      find? "flows" ns = find? "flows" ms ∧ find? "x" ns = find? "x" ms := by
  obtain ⟨base, hbase, hfive⟩ := exists_ok_of_any (x := limited.bodyFilter?)
    (p := fun base => base.limit = some 5) (by decide +kernel)
  obtain ⟨ms, ns, f, hms, hf, hns, -, hlimit, hoffset, hother⟩ :=
    (filter?_overrides limited).2.2 base hbase
  exact ⟨base, f, ms, ns, hbase, of_decide_eq_true hfive, hms, hf, hns, hlimit, hoffset,
    hother "flows" (by decide) (by decide), hother "x" (by decide) (by decide)⟩

end FilterFlags
end LiveQuery
