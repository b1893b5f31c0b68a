import LiveQuery.Json.Decode
import LiveQuery.Proofs.Json.Members
import LiveQuery.Proofs.Success

/-!
# What a decoder takes out of a text

The same layout gives the value of a text and what a decoder makes of it. A decoder of one kind of
value succeeds only on a value of that kind (`u32_eq_ok` up to `texts_eq_ok`), and what a decoder
that folds the members of an object holds in the end goes with the object (`foldMembers_induct`).
-/

namespace LiveQuery.Json

variable {ε α β σ : Type}

namespace Doc

theorem mismatch_ne_ok (expected : String) (d : Doc) (a : α) : d.mismatch expected ≠ .ok a := by
  intro h
  simp only [mismatch, bind_eq_ok] at h
  obtain ⟨⟨found, p⟩, -, h⟩ := h
  cases h

variable {d : Doc} {depth : Nat} {v : Json}

/-- What is decoded from a whole text is decoded from its layout. -/
theorem ok_of_decodeAll {decode : Doc → Except Error α} {text : List Glyph} {a : α}
    (h : decodeAll decode text = .ok a) : decode (ofGlyphs text).1 = .ok a := by
  simp only [decodeAll, bind_eq_ok] at h
  obtain ⟨b, hb, h⟩ := h
  split at h
  · obtain rfl := pure_eq_ok.mp h
    exact hb
  · split at h
    · obtain rfl := pure_eq_ok.mp h
      exact hb
    · cases h

/-! ## Values of one kind -/

theorem natural_eq_ok {bound n : Nat} {expected : String}
    (h : d.natural bound expected = .ok n) (hv : d.value depth = .ok v) :
    n ≤ bound ∧ v = .nat n := by
  cases d with
  | number value start after =>
    cases value with
    | error e => exact absurd h (mismatch_ne_ok _ _ n)
    | ok value =>
      cases value with
      | real x => exact absurd h (mismatch_ne_ok _ _ n)
      | int i =>
        simp only [natural] at h
        split at h
        · rename_i hi
          cases h
          refine ⟨by omega, ?_⟩
          rw [nat, Int.toNat_of_nonneg hi.1]
          exact (Except.ok.inj hv).symm
        · cases h
  | fault | broken | null | bool | string | array | object =>
    exact absurd h (mismatch_ne_ok _ _ n)

theorem u32_eq_ok {n : UInt32} (h : d.u32 = .ok n) (hv : d.value depth = .ok v) :
    v = .nat n.toNat := by
  simp only [u32, bind_eq_ok, pure_eq_ok] at h
  obtain ⟨m, hm, rfl⟩ := h
  obtain ⟨hle, rfl⟩ := natural_eq_ok hm hv
  have hlt : m < UInt32.size := Nat.lt_of_le_pred (by decide) hle
  rw [Nat.toUInt32, UInt32.toNat_ofNat_of_lt' hlt]

theorem text_eq_ok {s : String} (h : d.text = .ok s) (hv : d.value depth = .ok v) :
    v = .string s := by
  cases d with
  | string value start after =>
    simp only [text] at h
    subst h
    exact (Except.ok.inj hv).symm
  | fault | broken | null | bool | number | array | object =>
    exact absurd h (mismatch_ne_ok _ _ s)

theorem truth_eq_ok {b : Bool} (h : d.truth = .ok b) (hv : d.value depth = .ok v) :
    v = .bool b := by
  cases d with
  | bool value start after =>
    cases h
    exact (Except.ok.inj hv).symm
  | fault | broken | null | string | number | array | object =>
    exact absurd h (mismatch_ne_ok _ _ b)

theorem texts_of_items {items : List (Position × Doc)} {texts : List String} {vs : List Json}
    (h : items.mapM (fun item => item.2.text) = .ok texts)
    (hv : itemValues depth items = .ok vs) : vs = texts.map .string := by
  induction items generalizing texts vs with
  | nil =>
    cases h
    cases hv
    rfl
  | cons item rest ih =>
    obtain ⟨p, d⟩ := item
    simp only [List.mapM_cons, bind_eq_ok, pure_eq_ok] at h
    simp only [itemValues, bind_eq_ok, pure_eq_ok] at hv
    obtain ⟨s, hs, ss, hss, rfl⟩ := h
    obtain ⟨v, hv, vs, hvs, rfl⟩ := hv
    rw [text_eq_ok hs hv, ih hss hvs, List.map_cons]

theorem texts_eq_ok {values : List String} (h : d.texts depth = .ok values)
    (hv : d.value depth = .ok v) : v = .array (values.map .string) := by
  cases d with
  | array start items stop =>
    simp only [texts, bind_eq_ok, pure_eq_ok] at h
    simp only [value, bind_eq_ok, pure_eq_ok] at hv
    obtain ⟨depth', hdepth, texts, htexts, -, -, rfl⟩ := h
    obtain ⟨depth'', hdepth', vs, hvs, -, -, rfl⟩ := hv
    obtain rfl := Except.ok.inj (hdepth.symm.trans hdepth')
    rw [texts_of_items htexts hvs]
  | fault | broken | null | bool | string | number | object =>
    exact absurd h (mismatch_ne_ok _ _ values)

/-- What may be missing is null, or else it is there. -/
theorem optional_eq_ok {decode : Doc → Except Error α} {a : Option α}
    (h : d.optional decode = .ok a) :
    (a = none ∧ d.value depth = .ok .null) ∨ ∃ b, a = some b ∧ decode d = .ok b := by
  cases d with
  | null start after =>
    cases h
    exact .inl ⟨rfl, rfl⟩
  | fault | broken | bool | number | string | array | object =>
    simp only [optional, bind_eq_ok, pure_eq_ok] at h
    obtain ⟨b, hb, rfl⟩ := h
    exact .inr ⟨b, rfl, hb⟩

/-! ## Objects -/

/-- What holds of the start of a fold and the object without members, and is kept by every member,
holds of the end of the fold and the object. -/
theorem foldMembers_induct {take : σ → String → Position → Doc → Except Error σ}
    {I : σ → Members → Prop}
    (hstep : ∀ s s' name p d acc x, I s acc → take s name p d = .ok s' → d.value depth = .ok x →
      I s' (insert name x acc))
    {members : List (Key × Doc)} {stop : Stop} {s s' : σ} {p : Position} {ms : Members}
    (hs : I s []) (h : foldMembers take s members stop = .ok (s', p))
    (hv : memberValues depth members = .ok ms) : I s' (ofMembers ms) := by
  rw [ofMembers]
  generalize ([] : Members) = acc at hs ⊢
  induction members generalizing s acc ms with
  | nil =>
    simp only [foldMembers, bind_eq_ok, pure_eq_ok, Prod.mk.injEq] at h
    obtain ⟨-, -, rfl, -⟩ := h
    cases hv
    exact hs
  | cons member rest ih =>
    obtain ⟨k, d⟩ := member
    simp only [foldMembers, bind_eq_ok] at h
    simp only [memberValues, bind_eq_ok, pure_eq_ok] at hv
    obtain ⟨name, hname, s₁, htake, hrest⟩ := h
    obtain ⟨name', hname', x, hx, rest', hrest', rfl⟩ := hv
    obtain rfl := Except.ok.inj (hname.symm.trans hname')
    exact ih hrest hrest' (insert name x acc) (hstep s s₁ name _ d acc x hs htake hx)

/-- What holds at the start of a fold, and is kept by every member, holds at its end. -/
theorem foldMembers_keeps {take : σ → String → Position → Doc → Except Error σ} {I : σ → Prop}
    (hstep : ∀ s s' name p d, I s → take s name p d = .ok s' → I s')
    {members : List (Key × Doc)} {stop : Stop} {s s' : σ} {p : Position} (hs : I s)
    (h : foldMembers take s members stop = .ok (s', p)) : I s' := by
  induction members generalizing s with
  | nil =>
    simp only [foldMembers, bind_eq_ok, pure_eq_ok, Prod.mk.injEq] at h
    obtain ⟨-, -, rfl, -⟩ := h
    exact hs
  | cons member rest ih =>
    obtain ⟨k, d⟩ := member
    simp only [foldMembers, bind_eq_ok] at h
    obtain ⟨name, -, s₁, htake, hrest⟩ := h
    exact ih (hstep s s₁ name k.settled d hs htake) hrest

/-- An object that can be decoded member by member is a value of its members. -/
theorem value_object {start : Position} {members : List (Key × Doc)} {stop : Stop}
    (hv : (object start members stop).value depth = .ok v) :
    ∃ depth' ms, descend depth start = .ok depth' ∧ memberValues depth' members = .ok ms ∧
      v = .object (ofMembers ms) := by
  simp only [value, bind_eq_ok, pure_eq_ok] at hv
  obtain ⟨depth', hdepth, ms, hms, -, -, rfl⟩ := hv
  exact ⟨depth', ms, hdepth, hms, rfl⟩

/-- A decoder that folds the members of an object folds what the object is made of. -/
theorem exists_fold {take : Nat → σ → String → Position → Doc → Except Error σ}
    {finish : σ × Position → Except Error α} {start : Position} {members : List (Key × Doc)}
    {stop : Stop} {s : σ} {a : α}
    (h : (descend depth start >>= fun depth' =>
      foldMembers (take depth') s members stop >>= finish) = .ok a)
    (hv : (object start members stop).value depth = .ok v) :
    ∃ depth' ms s' after, foldMembers (take depth') s members stop = .ok (s', after) ∧
      finish (s', after) = .ok a ∧ memberValues depth' members = .ok ms ∧
      v = .object (ofMembers ms) := by
  obtain ⟨depth', ms, hdepth, hms, rfl⟩ := value_object hv
  simp only [bind_eq_ok] at h
  obtain ⟨depth'', hdepth', ⟨s', after⟩, hfold, hfinish⟩ := h
  obtain rfl := Except.ok.inj (hdepth.symm.trans hdepth')
  exact ⟨_, ms, s', after, hfold, hfinish, hms, rfl⟩

theorem value_array {start : Position} {items : List (Position × Doc)} {stop : Stop}
    (hv : (array start items stop).value depth = .ok v) : ∃ vs, v = .array vs := by
  simp only [value, bind_eq_ok, pure_eq_ok] at hv
  obtain ⟨-, -, vs, -, -, -, rfl⟩ := hv
  exact ⟨vs, rfl⟩

section Single

variable {decode : Nat → Doc → Except Error α} {encode : α → Json}

/-- Once a record of one field holds its field, the object read so far has at its key what the field
is decoded from. -/
theorem find?_of_take {field name : String} {p : Position} {held : Option α} {acc : Members} {a : α}
    (hdecode : ∀ {a}, decode depth d = .ok a → v = encode a)
    (hheld : ∀ a, held = some a → find? field acc = some (encode a))
    (h : single.take field decode depth held name p d = .ok (some a)) :
    find? field (insert name v acc) = some (encode a) := by
  rw [find?_insert]
  simp only [single.take] at h
  split at h
  · rename_i hname
    rw [if_pos hname]
    cases held with
    | some _ => cases h
    | none =>
      simp only [once, bind_eq_ok, pure_eq_ok] at h
      obtain ⟨b, hb, hab⟩ := h
      rw [hdecode hb, Option.some.inj hab]
  · rename_i hname
    simp only [bind_eq_ok, pure_eq_ok] at h
    obtain ⟨-, -, h⟩ := h
    rw [if_neg hname]
    exact hheld a h

/-- A record of one field, written as an object, has at the key of the field what the field is
decoded from. -/
theorem single_eq_ok (hdecode : ∀ {depth d a v}, decode depth d = .ok a → d.value depth = .ok v →
      v = encode a)
    {record field : String} {a : α} (h : d.single depth record field decode = .ok a)
    (hv : d.value depth = .ok v) (harray : ∀ items, v ≠ .array items) :
    ∃ ms, v = .object ms ∧ find? field ms = some (encode a) := by
  cases d with
  | object start members stop =>
    obtain ⟨depth', ms, held, after, hfold, h, hms, rfl⟩ := exists_fold h hv
    refine ⟨_, rfl, ?_⟩
    have hheld : ∀ a, held = some a → find? field (ofMembers ms) = some (encode a) := by
      refine foldMembers_induct
        (I := fun held acc => ∀ a, held = some a → find? field acc = some (encode a))
        ?_ ?_ hfold hms
      · intro held held' name p d acc x ih htake hx a ha
        subst ha
        exact find?_of_take (fun hb => hdecode hb hx) ih htake
      · intro a ha
        cases ha
    cases held with
    | none => cases h
    | some b =>
      obtain rfl := pure_eq_ok.mp h
      exact hheld b rfl
  | array start items stop =>
    obtain ⟨vs, rfl⟩ := value_array hv
    exact absurd rfl (harray vs)
  | fault | broken | null | bool | number | string => exact absurd h (mismatch_ne_ok _ _ a)

end Single

end Doc
end LiveQuery.Json
