import LiveQuery.Proofs.Json.Decoding
import LiveQuery.Proofs.Json.Kept

/-!
# Where operators stand in a filter

An operator of a filter has fixed members and passes over all others, wherever it stands. A `Site`
says where that is, and `Foreign` of which paths in a filter lead through a member that an operator
does not have. `KeepsAll` is what is to be shown of a decoder: it keeps everything but what stands
at such a path. A decoder that reads an object member by member is followed with `Held`, which
compares what was read so far with what is held of it, key by key.
-/

namespace LiveQuery.Filter

open Json (Keeps MemberKept Members Doc find?)

/-- A place in a filter at which an operator stands, and the keys of the operator. -/
structure Site where
  path : List String
  keys : List String
  deriving DecidableEq, Repr

/-- The site in a larger value that has at a key what the site is in. -/
def Site.under (k : String) (s : Site) : Site := { s with path := k :: s.path }

/-- The site in what stands at a key, if the site is in there. -/
def Site.below? (k : String) (s : Site) : Option Site :=
  match s.path with
  | [] => none
  | k' :: path => if k' = k then some { s with path } else none

/-- The sites in what stands at a key. -/
def below (k : String) (sites : List Site) : List Site := sites.filterMap (Site.below? k)

/-- A path that leads through a member which an operator does not have. -/
def Foreign (sites : List Site) (path : List String) : Prop :=
  ∃ s ∈ sites, ∃ k rest, path = s.path ++ k :: rest ∧ k ∉ s.keys

/-- No operator in the value is spelled as a bare array. -/
def Spelled (sites : List Site) (v : Json) : Prop :=
  ∀ s ∈ sites, ∀ items, v.at? s.path ≠ some (.array items)

/-- Whether a value is an array. -/
def isArray : Json → Bool
  | .array _ => true
  | _ => false

variable {sites : List Site} {k : String} {path : List String}

theorem spelled_iff {v : Json} :
    Spelled sites v ↔ ∀ s ∈ sites, (v.at? s.path).any isArray = false := by
  refine forall₂_congr fun s _ => ?_
  cases v.at? s.path with
  | none => simp
  | some x => cases x <;> simp [isArray]

instance (sites : List Site) (v : Json) : Decidable (Spelled sites v) :=
  decidable_of_iff _ spelled_iff.symm

theorem Site.below?_eq_some {s t : Site} : s.below? k = some t ↔ s = t.under k := by
  obtain ⟨path, keys⟩ := s
  obtain ⟨path', keys'⟩ := t
  cases path with
  | nil => simp [below?, under]
  | cons k' path =>
    by_cases hk : k' = k
    · simp [below?, under, hk]
    · simp [below?, under, hk]

theorem mem_below {t : Site} : t ∈ below k sites ↔ t.under k ∈ sites := by
  simp only [below, List.mem_filterMap, Site.below?_eq_some, exists_eq_right]

theorem not_foreign_nil (sites : List Site) : ¬ Foreign sites [] := by
  rintro ⟨s, -, k, rest, h, -⟩
  simp at h

theorem not_foreign_of_nil (path : List String) : ¬ Foreign [] path := by
  rintro ⟨s, h, -⟩
  cases h

/-- A path leads through a foreign member of the operator at the top, or of one further down. -/
theorem foreign_cons :
    Foreign sites (k :: path) ↔
      (∃ s ∈ sites, s.path = [] ∧ k ∉ s.keys) ∨ Foreign (below k sites) path := by
  constructor
  · rintro ⟨⟨spath, keys⟩, hs, k', rest, h, hk⟩
    cases spath with
    | nil =>
      obtain ⟨rfl, -⟩ := List.cons.inj h
      exact .inl ⟨_, hs, rfl, hk⟩
    | cons key spath =>
      obtain ⟨rfl, rfl⟩ := List.cons.inj h
      exact .inr ⟨⟨spath, keys⟩, mem_below.mpr hs, k', rest, rfl, hk⟩
  · rintro (⟨s, hs, hpath, hk⟩ | ⟨t, ht, k', rest, rfl, hk⟩)
    · exact ⟨s, hs, k, path, by rw [hpath, List.nil_append], hk⟩
    · exact ⟨t.under k, mem_below.mp ht, k', rest, rfl, hk⟩

/-- Where no operator stands at the top, or one that has the key, what is foreign is so further
down. -/
theorem foreign_cons_of_known (hk : ∀ s ∈ sites, s.path = [] → k ∈ s.keys) :
    Foreign sites (k :: path) ↔ Foreign (below k sites) path := by
  rw [foreign_cons, or_iff_right]
  rintro ⟨s, hs, hpath, hnot⟩
  exact hnot (hk s hs hpath)

theorem Spelled.below {ms : Members} {x : Json} (h : Spelled sites (.object ms))
    (hx : find? k ms = some x) : Spelled (below k sites) x := by
  intro t ht items hitems
  refine h (t.under k) (mem_below.mp ht) items ?_
  simpa only [Site.under, Json.at?, hx, Option.bind_some] using hitems

/-! ## Decoders -/

/-- What a decoder takes out of a layout, encoded again, has everything of the value laid out but
what stands at a foreign path. -/
def KeepsAll {α : Type} (decode : Doc → Except Json.Error α) (encode : α → Json)
    (sites : List Site) (depth : Nat) : Prop :=
  ∀ {d : Doc} {a : α} {v : Json}, decode d = .ok a → d.value depth = .ok v → Spelled sites v →
    Keeps (Foreign sites) v (encode a)

variable {α : Type} {d : Doc} {depth : Nat} {v : Json}

/-- A decoder of one kind of value keeps all of it. -/
theorem keepsAll_of_eq {decode : Doc → Except Json.Error α} {encode : α → Json}
    (hdecode : ∀ {d a v}, decode d = .ok a → d.value depth = .ok v → v = encode a) :
    KeepsAll decode encode [] depth := by
  intro d a v ha hv _
  obtain rfl := hdecode ha hv
  have hlost : Foreign [] = fun _ => False := funext fun path => eq_false (not_foreign_of_nil path)
  exact hlost ▸ .refl _

/-- A field that may be missing or null. -/
theorem KeepsAll.optional {decode : Doc → Except Json.Error α} {encode : α → Json}
    (hdecode : KeepsAll decode encode sites depth) {a : Option α}
    (ha : d.optional decode = .ok a) (hv : d.value depth = .ok v) (hs : Spelled sites v) :
    MemberKept (Foreign sites) (some v) (a.map encode) := by
  rcases Doc.optional_eq_ok ha with ⟨rfl, hnull⟩ | ⟨b, rfl, hb⟩
  · obtain rfl := Except.ok.inj (hv.symm.trans hnull)
    exact .unset
  · exact .kept (hdecode hb hv hs)

/-- An operator with one key. -/
theorem keepsAll_single {decode : Nat → Doc → Except Json.Error α} {encode : α → Json}
    (hdecode : ∀ {depth d a v}, decode depth d = .ok a → d.value depth = .ok v → v = encode a)
    (record field : String) :
    KeepsAll (Doc.single depth record field decode) (fun a => Json.obj [(field, encode a)])
      [⟨[], [field]⟩] depth := by
  intro d a v ha hv hs
  have harray : ∀ items, v ≠ .array items := by
    rintro items rfl
    exact hs _ (List.mem_singleton_self _) items rfl
  obtain ⟨ms, rfl, hfield⟩ := Doc.single_eq_ok hdecode ha hv harray
  refine .object (not_foreign_nil _) fun k => ?_
  simp only [Json.find?_ofMembers, Json.last?, Option.none_or]
  by_cases hk : field = k
  · subst hk
    rw [hfield, if_pos rfl]
    refine .refl (fun path => ?_) _
    rw [foreign_cons_of_known (by simp)]
    exact not_foreign_of_nil path
  · rw [if_neg hk]
    refine .passed _ fun path => foreign_cons.mpr (.inl ⟨_, List.mem_singleton_self _, rfl, ?_⟩)
    simpa using Ne.symm hk

/-! ## Objects read member by member -/

/-- Of the members read so far, what is held at each key has everything that is not foreign. -/
def Held (sites : List Site) (held : String → Option Json) (acc : Members) : Prop :=
  ∀ k, (∀ x, find? k acc = some x → Spelled (below k sites) x) →
    MemberKept (fun path => Foreign sites (k :: path)) (find? k acc) (held k)

variable {held held' : String → Option Json} {acc ms ns : Members}

theorem Held.nil (h : ∀ k, held k = none) : Held sites held [] := by
  intro k _
  rw [h k, Json.find?_nil]
  exact .absent

/-- A member is read, and what is held changes at its key at most. -/
theorem Held.insert {name : String} {x : Json} (h : Held sites held acc)
    (hname : Spelled (below name sites) x →
      MemberKept (fun path => Foreign sites (name :: path)) (some x) (held' name))
    (hother : ∀ k, name ≠ k → held' k = held k) :
    Held sites held' (Json.insert name x acc) := by
  intro k hk
  rw [Json.find?_insert] at hk ⊢
  by_cases hnk : name = k
  · subst hnk
    rw [if_pos rfl] at hk ⊢
    exact hname (hk x rfl)
  · rw [if_neg hnk] at hk ⊢
    exact hother k hnk ▸ h k hk

/-- All members are read, and what is held is encoded as an object. -/
theorem Held.keeps (h : Held sites held ms) (hs : Spelled sites (.object ms))
    (hns : ∀ k, find? k ns = held k) : Keeps (Foreign sites) (.object ms) (.object ns) :=
  .object (not_foreign_nil _) fun k => hns k ▸ h k fun _ hx => hs.below hx

end LiveQuery.Filter
