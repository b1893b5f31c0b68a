import LiveQuery.Proofs.Filter.Decoding
import LiveQuery.Proofs.Json.Layout

/-!
# Decoding undoes encoding

The members of an encoded filter are its fields and everything else, at different keys unless
something else has the name of a field (`Record.Proper`). While a decoder reads them, in whatever
order, it holds the filter as far as its members have been read (`Record.within`). So it ends up
with the record (`Record.Grows.undoes`), and with the filter: `Filter.ofDoc_toJson`.
-/

namespace LiveQuery

open Json (Members Doc OpenRecord Sorted Canonical)
open LiveQuery.Json.Doc (Undoes)

/-! ## Operators -/

theorem AnyOf.undoes (a : AnyOf) : Undoes AnyOf.ofDoc (AnyOf.encode Json.obj) a := by
  intro depth d hd hv
  have hvalues := Doc.undoes_single (Doc.undoes_texts a.values) "AnyOf" "any_" hd hv
  simp only [ofDoc, hvalues, ok_bind]
  rfl

theorem AllOf.undoes (a : AllOf) : Undoes AllOf.ofDoc (AllOf.encode Json.obj) a := by
  intro depth d hd hv
  have hvalues := Doc.undoes_single (Doc.undoes_texts a.values) "AllOf" "all_" hd hv
  simp only [ofDoc, hvalues, ok_bind]
  rfl

theorem Equals.undoes (a : Equals) : Undoes Equals.ofDoc (Equals.encode Json.obj) a := by
  intro depth d hd hv
  have hvalue := Doc.undoes_single (Doc.undoes_truth a.value) "Equals" "eq_" hd hv
  simp only [ofDoc, hvalue, ok_bind]
  rfl

theorem Json.canonical_texts (values : List String) : Canonical (Json.texts values) := by
  refine .array fun v hv => ?_
  obtain ⟨s, -, rfl⟩ := List.mem_map.mp hv
  exact .string s

theorem AnyOf.canonical (a : AnyOf) : Canonical (a.encode Json.obj) :=
  .single (Json.canonical_texts a.values)

theorem AllOf.canonical (a : AllOf) : Canonical (a.encode Json.obj) :=
  .single (Json.canonical_texts a.values)

theorem Equals.canonical (a : Equals) : Canonical (a.encode Json.obj) :=
  .single (.bool a.value)

theorem Json.mem_member? {α : Type} {name k : String} {encode : α → Json} {a : Option α}
    {x : Json} :
    (k, x) ∈ Json.member? name encode a ↔ k = name ∧ ∃ b, a = some b ∧ x = encode b := by
  cases a <;> simp [Json.member?]

theorem Json.mem_names_member? {α : Type} {name : String} {encode : α → Json} {a : Option α}
    (h : a.isSome = true) : name ∈ (Json.member? name encode a).map Prod.fst := by
  obtain ⟨b, rfl⟩ := Option.isSome_iff_exists.mp h
  exact List.mem_singleton_self name

/-- What is held of an optional value is the value, if it has been read where there is one. -/
theorem Option.join_ite_some {α : Type} {a : Option α} {p : Prop} [Decidable p]
    (h : a.isSome = true → p) : (if p then some a else none).join = a := by
  cases a with
  | none => split <;> rfl
  | some a => simp [h rfl]

namespace StateFilter

/-- The two halves, as far as members of certain names have been read. -/
def within (names : List String) (s : StateFilter) : Option (Option AnyOf) × Option (Option AnyOf) :=
  (if "type" ∈ names then some s.type else none, if "name" ∈ names then some s.name else none)

theorem undoes (s : StateFilter) : Undoes ofDoc (encode Json.obj) s := by
  intro depth d hd hv
  have hnodup : ((Json.member? "type" (AnyOf.encode Json.obj) s.type
      ++ Json.member? "name" (AnyOf.encode Json.obj) s.name).map Prod.fst).Nodup := by
    cases s.type <;> cases s.name <;> simp [Json.member?]
  obtain ⟨start, ds, stop, depth', names, after, rfl, hdepth, hnames, hfold⟩ :=
    Doc.foldMembers_shown take (fun names => s.within names) hnodup
      (fun depth names name p d x hx hname hd hv => by
        rcases List.mem_append.mp hx with hx | hx
        · obtain ⟨rfl, a, ha, rfl⟩ := Json.mem_member?.mp hx
          have hhalf : half depth d = .ok (some a) :=
            (AnyOf.undoes a).optional (Json.obj_ne_null _) hd hv
          simp [take, within, hname, ha, hhalf, Doc.once, ok_bind, pure, Except.pure]
        · obtain ⟨rfl, a, ha, rfl⟩ := Json.mem_member?.mp hx
          have hhalf : half depth d = .ok (some a) :=
            (AnyOf.undoes a).optional (Json.obj_ne_null _) hd hv
          simp [take, within, hname, ha, hhalf, Doc.once, ok_bind, pure, Except.pure])
      hd hv
  have htype : (s.within names).1.join = s.type := Option.join_ite_some fun hs => by
    rw [hnames, List.map_append]
    exact List.mem_append_left _ (Json.mem_names_member? hs)
  have hname : (s.within names).2.join = s.name := Option.join_ite_some fun hs => by
    rw [hnames, List.map_append]
    exact List.mem_append_right _ (Json.mem_names_member? hs)
  have hstart : s.within [] = (none, none) := rfl
  simp only [ofDoc, hdepth, ok_bind, ← hstart, hfold, htype, hname]
  rfl

theorem canonical (s : StateFilter) : Canonical (s.encode Json.obj) := by
  refine Json.canonical_obj fun m hm => ?_
  rcases List.mem_append.mp hm with hm | hm
  · obtain ⟨-, a, -, hx⟩ := Json.mem_member?.mp hm
    exact hx ▸ a.canonical
  · obtain ⟨-, a, -, hx⟩ := Json.mem_member?.mp hm
    exact hx ▸ a.canonical

end StateFilter

/-! ## Records -/

namespace Record

variable {σ φ : Type} {R : Record σ φ} {s : σ}

/-- What is there besides the fields is in order, and no field has its name. -/
structure Proper (R : Record σ φ) (s : σ) : Prop where
  canonical : Canonical (.object (R.extra s))
  apart : ∀ f, R.text f ∉ (R.extra s).map Prod.fst

theorem Proper.sorted (h : R.Proper s) : Sorted (R.extra s) := by
  cases h.canonical with
  | object hs _ => exact hs

theorem mem_members {name : String} {x : Json} :
    (name, x) ∈ R.members s ↔
      (∃ f, R.text f = name ∧ R.get? s f = some x) ∨ (name, x) ∈ R.extra s := by
  simp only [members, List.mem_append, List.mem_filterMap, Option.map_eq_some_iff, Prod.mk.injEq]
  constructor
  · rintro (⟨f, -, y, hy, rfl, rfl⟩ | h)
    · exact .inl ⟨f, rfl, hy⟩
    · exact .inr h
  · rintro (⟨f, rfl, hx⟩ | h)
    · exact .inl ⟨f, R.mem_all f, x, hx, rfl, rfl⟩
    · exact .inr h

theorem Proper.nodup_members (h : R.Proper s) : ((R.members s).map Prod.fst).Nodup := by
  rw [members, List.map_append, List.nodup_append]
  refine ⟨?_, h.sorted.nodup, ?_⟩
  · have hsub : ((R.all.filterMap fun f => (R.get? s f).map (R.text f, ·)).map Prod.fst).Sublist
        (R.all.map R.text) := by
      generalize R.all = fields
      induction fields with
      | nil => exact .slnil
      | cons f fields ih =>
        cases hf : R.get? s f with
        | none => simpa [hf] using ih.cons _
        | some x => simpa [hf] using ih.cons_cons (R.text f)
    exact R.nodup.sublist hsub
  · rintro _ hname name' hname' rfl
    obtain ⟨⟨_, x⟩, hm, rfl⟩ := List.mem_map.mp hname
    obtain ⟨f, -, hf⟩ := List.mem_filterMap.mp hm
    obtain ⟨y, -, he⟩ := Option.map_eq_some_iff.mp hf
    cases he
    exact h.apart f hname'

theorem Proper.canonical_members (h : R.Proper s)
    (hget : ∀ f x, R.get? s f = some x → Canonical x) : Canonical (.obj (R.members s)) := by
  refine Json.canonical_obj fun m hm => ?_
  rcases mem_members.mp hm with ⟨f, -, hf⟩ | hm
  · exact hget f m.2 hf
  · cases h.canonical with
    | object _ hextra => exact hextra m hm

/-- What `only` gives are parts of a record, with certain of its fields and with members besides: from
nothing they grow by each field and each member that is read, and with all fields that are set and
the record's own members they are the record. -/
structure Grows (R : Record σ φ) [DecidableEq φ] (o : OpenRecord σ φ)
    (only : (φ → Bool) → Members → σ) (s : σ) : Prop where
  empty : only (fun _ => false) [] = o.empty
  field : ∀ {depth d f x}, R.get? s f = some x → d.Distinct → d.value depth = .ok x →
    ∀ p ms, o.setField depth (only p ms) d f = .ok (only (fun g => g = f || p g) ms)
  keep : ∀ name x p ms, o.keep name x (only p ms) = only p (Json.insert name x ms)
  whole : ∀ p, (∀ f, (R.get? s f).isSome = true → p f = true) → only p (R.extra s) = s

/-- The record as far as members of certain names are concerned. -/
def within (R : Record σ φ) (only : (φ → Bool) → Members → σ) (s : σ) (names : List String) : σ :=
  only (fun f => R.text f ∈ names) ((R.extra s).filter fun m => m.1 ∈ names)

/-- Of which fields the members have been read, by their names. -/
def seen (R : Record σ φ) (names : List String) : List φ :=
  names.filterMap fun name => R.all.find? fun f => R.text f = name

theorem seen_cons_text (f : φ) (names : List String) :
    R.seen (R.text f :: names) = f :: R.seen names :=
  List.filterMap_cons_some (R.find?_text f)

theorem seen_cons_of_find? {name : String} (h : R.all.find? (fun f => R.text f = name) = none)
    (names : List String) : R.seen (name :: names) = R.seen names :=
  List.filterMap_cons_none h

namespace Grows

variable [DecidableEq φ] {o : OpenRecord σ φ} {only : (φ → Bool) → Members → σ} {depth : Nat}
  {d : Doc} {names : List String}

theorem within_nil (h : R.Grows o only s) : R.within only s [] = o.empty := by
  rw [← h.empty]
  simp [within]

/-- A field is read. -/
theorem setField_within (h : R.Grows o only s) (hp : R.Proper s) {f : φ} {x : Json}
    (hx : R.get? s f = some x) (hd : d.Distinct) (hv : d.value depth = .ok x)
    (names : List String) :
    o.setField depth (R.within only s names) d f = .ok (R.within only s (R.text f :: names)) := by
  have hfields : (fun g => decide (g = f) || decide (R.text g ∈ names)) =
      fun g => decide (R.text g ∈ R.text f :: names) := by
    funext g
    simp [R.text_injective.eq_iff]
  rw [within, h.field hx hd hv, hfields, within, Json.filter_cons_of_not_mem (hp.apart f)]

/-- A member that is no field is read. -/
theorem keep_within (h : R.Grows o only s) (hp : R.Proper s) {name : String} {x : Json}
    (hx : (name, x) ∈ R.extra s) (hname : name ∉ names) :
    o.keep name x (R.within only s names) = R.within only s (name :: names) := by
  have hne : ∀ f, R.text f ≠ name := fun f he => hp.apart f (he ▸ List.mem_map_of_mem hx)
  have hfields : (fun f => decide (R.text f ∈ names)) =
      fun f => decide (R.text f ∈ name :: names) := by
    funext f
    simp [hne f]
  rw [within, h.keep, hfields, within, Json.insert_filter hp.sorted hx hname]

/-- All members have been read. -/
theorem within_eq_self (h : R.Grows o only s) (hall : ∀ m ∈ R.members s, m.1 ∈ names) :
    R.within only s names = s := by
  have hextra : ((R.extra s).filter fun m => m.1 ∈ names) = R.extra s :=
    List.filter_eq_self.mpr fun m hm => decide_eq_true (hall m (mem_members.mpr (.inr hm)))
  rw [within, hextra]
  apply h.whole
  intro f hf
  obtain ⟨x, hx⟩ := Option.isSome_iff_exists.mp hf
  exact decide_eq_true (hall (R.text f, x) (mem_members.mpr (.inl ⟨f, rfl, hx⟩)))

theorem take_within (h : R.Grows o only s) (ho : R.ReadBy o) (hp : R.Proper s) {name : String}
    {x : Json} (hx : (name, x) ∈ R.members s) (hname : name ∉ names) (p : Json.Position)
    (hd : d.Distinct) (hv : d.value depth = .ok x) :
    o.take depth (R.seen names, R.within only s names) name p d =
      .ok (R.seen (name :: names), R.within only s (name :: names)) := by
  rcases mem_members.mp hx with ⟨f, rfl, hf⟩ | hextra
  -- A field comes once only, as no key comes twice; nothing else has the name of a field.
  · have hnew : f ∉ R.seen names := fun hmem => by
      obtain ⟨n, hn, hfind⟩ := List.mem_filterMap.mp hmem
      exact hname (text_of_find? hfind ▸ hn)
    simp only [OpenRecord.take, ho.field?_eq, find?_text, seen_cons_text]
    rw [if_neg hnew, h.setField_within hp hf hd hv]
    rfl
  · have hfind : R.all.find? (fun f => R.text f = name) = none :=
      List.find?_eq_none.mpr fun f _ => by
        have hne : R.text f ≠ name := fun he => hp.apart f (he ▸ List.mem_map_of_mem hextra)
        simpa using hne
    simp only [OpenRecord.take, ho.field?_eq, hfind, seen_cons_of_find? hfind, hv, ok_bind,
      h.keep_within hp hextra hname]
    rfl

/-- From every layout of the members, whatever their order, the record is read. -/
theorem undoes (h : R.Grows o only s) (ho : R.ReadBy o) (hp : R.Proper s) :
    Undoes o.ofDoc (fun s => .obj (R.members s)) s := by
  intro depth d hd hv
  obtain ⟨start, ds, stop, depth', names, after, rfl, hdepth, hnames, hfold⟩ :=
    Doc.foldMembers_shown o.take (fun names => (R.seen names, R.within only s names))
      hp.nodup_members
      (fun depth names name p d x hx hname hd hv => h.take_within ho hp hx hname p hd hv) hd hv
  have hwhole : R.within only s names = s :=
    h.within_eq_self fun m hm => (hnames m.1).mpr (List.mem_map_of_mem hm)
  have hstart : (R.seen [], R.within only s []) = ([], o.empty) := by
    rw [h.within_nil]
    rfl
  rw [hwhole, hstart] at hfold
  simp only [OpenRecord.ofDoc, hdepth, ok_bind, hfold]
  rfl

end Grows
end Record

/-! ## Entity filters -/

/-- What is set, if it is looked for. -/
theorem Option.filter_eq_self {α : Type} {a : Option α} {p : Bool}
    (h : a.isSome = true → p = true) : (a.filter fun _ => p) = a := by
  cases a with
  | none => rfl
  | some a => simpa using h rfl

namespace EntityFilter

/-- The filter with certain of its fields only, and with other members besides. -/
def only (e : EntityFilter) (p : Field → Bool) (ms : Members) : EntityFilter where
  id := e.id.filter fun _ => p .id
  name := e.name.filter fun _ => p .name
  tags := e.tags.filter fun _ => p .tags
  state := e.state.filter fun _ => p .state
  deploymentId := e.deploymentId.filter fun _ => p .deploymentId
  flowVersion := e.flowVersion.filter fun _ => p .flowVersion
  isScheduleActive := e.isScheduleActive.filter fun _ => p .isScheduleActive
  extra := ms

variable {e : EntityFilter} {depth : Nat} {d : Doc} {x : Json}

theorem setField_only {f : Field} (hx : e.get? Json.obj f = some x) (hd : d.Distinct)
    (hv : d.value depth = .ok x) (p : Field → Bool) (ms : Members) :
    (e.only p ms).setField depth d f = .ok (e.only (fun g => g = f || p g) ms) := by
  cases f <;> obtain ⟨a, ha, rfl⟩ := Option.map_eq_some_iff.mp hx
  case id | name | deploymentId | flowVersion =>
    have hread := (AnyOf.undoes a).optional (Json.obj_ne_null _) hd hv
    simp only [setField, hread, ok_bind, only, ha]
    rfl
  case tags =>
    have hread := (AllOf.undoes a).optional (Json.obj_ne_null _) hd hv
    simp only [setField, hread, ok_bind, only, ha]
    rfl
  case state =>
    have hread := (StateFilter.undoes a).optional (Json.obj_ne_null _) hd hv
    simp only [setField, hread, ok_bind, only, ha]
    rfl
  case isScheduleActive =>
    have hread := (Equals.undoes a).optional (Json.obj_ne_null _) hd hv
    simp only [setField, hread, ok_bind, only, ha]
    rfl

theorem only_eq_self {p : Field → Bool}
    (h : ∀ f, (e.get? Json.obj f).isSome = true → p f = true) : e.only p e.extra = e := by
  obtain ⟨id, name, tags, state, deploymentId, flowVersion, isScheduleActive, extra⟩ := e
  simp only [only, EntityFilter.mk.injEq, and_true]
  refine ⟨?_, ?_, ?_, ?_, ?_, ?_, ?_⟩ <;> refine Option.filter_eq_self fun ha => ?_
  · exact h .id (by simpa [get?] using ha)
  · exact h .name (by simpa [get?] using ha)
  · exact h .tags (by simpa [get?] using ha)
  · exact h .state (by simpa [get?] using ha)
  · exact h .deploymentId (by simpa [get?] using ha)
  · exact h .flowVersion (by simpa [get?] using ha)
  · exact h .isScheduleActive (by simpa [get?] using ha)

theorem grows (e : EntityFilter) : record.Grows openRecord e.only e where
  empty := by simp [only, openRecord, empty]
  field := setField_only
  keep _ _ _ _ := rfl
  whole _ := only_eq_self

theorem undoes (he : record.Proper e) : Undoes ofDoc (encode Json.obj) e :=
  (grows e).undoes readBy he

theorem canonical_encode (he : record.Proper e) : Canonical (encode Json.obj e) := by
  refine he.canonical_members fun f x hx => ?_
  cases f <;> obtain ⟨a, -, rfl⟩ := Option.map_eq_some_iff.mp hx
  case id | name | deploymentId | flowVersion => exact a.canonical
  case tags => exact a.canonical
  case state => exact a.canonical
  case isScheduleActive => exact a.canonical

end EntityFilter

/-! ## Filters -/

namespace Filter

/-- Nothing else in a filter, or in what it asks of a kind of entity, has the name of a field
there. -/
structure Proper (f : Filter) : Prop where
  record : record.Proper f
  entities : ∀ e, some e ∈ [f.flows, f.flowRuns, f.taskRuns, f.deployments] →
    EntityFilter.record.Proper e

/-- The filter with certain of its fields only, and with other members besides. -/
def only (f : Filter) (p : Field → Bool) (ms : Members) : Filter where
  limit := f.limit.filter fun _ => p .limit
  offset := f.offset.filter fun _ => p .offset
  sort := f.sort.filter fun _ => p .sort
  flows := f.flows.filter fun _ => p .flows
  flowRuns := f.flowRuns.filter fun _ => p .flowRuns
  taskRuns := f.taskRuns.filter fun _ => p .taskRuns
  deployments := f.deployments.filter fun _ => p .deployments
  extra := ms

variable {f : Filter} {depth : Nat} {d : Doc} {x : Json}

theorem setField_only (hf : f.Proper) {field : Field} (hx : f.get? Json.obj field = some x)
    (hd : d.Distinct) (hv : d.value depth = .ok x) (p : Field → Bool) (ms : Members) :
    (f.only p ms).setField depth d field = .ok (f.only (fun g => g = field || p g) ms) := by
  cases field <;> obtain ⟨a, ha, rfl⟩ := Option.map_eq_some_iff.mp hx
  case limit | offset =>
    have hread := (Doc.undoes_u32 a).optional (Json.nat_ne_null _) hd hv
    simp only [setField, hread, ok_bind, only, ha]
    rfl
  case sort =>
    have hread := (Doc.undoes_text a).optional (Json.string_ne_null _) hd hv
    simp only [setField, hread, ok_bind, only, ha]
    rfl
  case flows | flowRuns | taskRuns | deployments =>
    have he : EntityFilter.record.Proper a := hf.entities a (by simp [ha])
    have hread := (EntityFilter.undoes he).optional (Json.obj_ne_null _) hd hv
    simp only [setField, hread, ok_bind, only, ha]
    rfl

theorem only_eq_self {p : Field → Bool}
    (h : ∀ g, (f.get? Json.obj g).isSome = true → p g = true) : f.only p f.extra = f := by
  obtain ⟨limit, offset, sort, flows, flowRuns, taskRuns, deployments, extra⟩ := f
  simp only [only, Filter.mk.injEq, and_true]
  refine ⟨?_, ?_, ?_, ?_, ?_, ?_, ?_⟩ <;> refine Option.filter_eq_self fun ha => ?_
  · exact h .limit (by simpa [get?] using ha)
  · exact h .offset (by simpa [get?] using ha)
  · exact h .sort (by simpa [get?] using ha)
  · exact h .flows (by simpa [get?] using ha)
  · exact h .flowRuns (by simpa [get?] using ha)
  · exact h .taskRuns (by simpa [get?] using ha)
  · exact h .deployments (by simpa [get?] using ha)

theorem grows (hf : f.Proper) : record.Grows openRecord f.only f where
  empty := by simp [only, openRecord, empty]
  field := setField_only hf
  keep _ _ _ _ := rfl
  whole _ := only_eq_self

theorem undoes (hf : f.Proper) : Undoes ofDoc toJson f := (grows hf).undoes readBy hf.record

theorem canonical_toJson (hf : f.Proper) : Canonical f.toJson := by
  refine hf.record.canonical_members fun field x hx => ?_
  cases field <;> obtain ⟨a, ha, rfl⟩ := Option.map_eq_some_iff.mp hx
  case limit | offset => exact .number _
  case sort => exact .string _
  case flows | flowRuns | taskRuns | deployments =>
    exact EntityFilter.canonical_encode (hf.entities a (by simp [ha]))

/-- A filter is encoded as the empty object exactly if nothing is set in it. -/
theorem toJson_eq_empty_iff (f : Filter) : f.toJson = .object [] ↔ f.isEmpty = true := by
  have hempty : f.toJson = .object [] ↔ f.declared Json.obj = [] ∧ f.extra = [] := by
    rw [← List.append_eq_nil_iff, ← Json.ofMembers_eq_nil_iff, toJson, encode, Json.obj,
      Json.object.injEq]
  rw [hempty, declared, List.filterMap_eq_nil_iff]
  simp [Field.all, get?, isEmpty, and_assoc]

/-- Decoding undoes encoding: the value of a filter can be laid out, and from every layout of it in
which no object has a key twice, whatever the order of members, the filter is decoded, at every
depth at which the value is. So filters of one value are equal. Only the empty filter is encoded as
the empty object. -/
theorem ofDoc_toJson :
    (∀ f : Filter, f.Proper →
      (∃ (d : Doc) (bound : Nat), d.Distinct ∧
        ∀ depth, bound ≤ depth → d.value depth = .ok f.toJson) ∧
      ∀ (depth : Nat) (d : Doc), d.Distinct → d.value depth = .ok f.toJson → ofDoc depth d = .ok f) ∧
    (∀ f g : Filter, f.Proper → g.Proper → f.toJson = g.toJson → f = g) ∧
    ∀ f : Filter, f.toJson = .object [] ↔ f.isEmpty = true := by
  refine ⟨fun f hf => ⟨Doc.exists_doc (canonical_toJson hf), fun depth d hd hv => undoes hf hd hv⟩,
    fun f g hf hg he => ?_, toJson_eq_empty_iff⟩
  obtain ⟨d, bound, hd, hv⟩ := Doc.exists_doc (canonical_toJson hf)
  have hvf := hv bound (Nat.le_refl bound)
  have hdf : ofDoc bound d = .ok f := undoes hf hd hvf
  have hdg : ofDoc bound d = .ok g := undoes hg hd (he ▸ hvf)
  exact Except.ok.inj (hdf.symm.trans hdg)

/-- A filter with members besides the fields, on both levels, under names that are those of fields
on the other level. -/
def crossed : Filter :=
  { empty with
    limit := some 0
    flows := some { EntityFilter.empty with state := some .any, extra := [("limit", .array [])] }
    extra := [("state", .object [("type", .null)])] }

theorem proper_crossed : crossed.Proper where
  record :=
    { canonical :=
        .object (List.pairwise_singleton _ _) fun _ hm => List.mem_singleton.mp hm ▸
          .object (List.pairwise_singleton _ _) fun _ hm => List.mem_singleton.mp hm ▸ .null
      apart := fun f => by cases f <;> decide }
  entities e he := by
    obtain rfl : e = { EntityFilter.empty with
        state := some .any, extra := [("limit", .array [])] } := by
      simpa [crossed, empty] using he
    exact
      { canonical :=
          .object (List.pairwise_singleton _ _) fun _ hm => List.mem_singleton.mp hm ▸
            .array fun _ hv => absurd hv List.not_mem_nil
        apart := fun f => by cases f <;> decide }

theorem ofDoc_toJson_crossed :
    crossed.Proper ∧ (∃ (d : Doc) (depth : Nat), d.value depth = .ok crossed.toJson ∧
      ofDoc depth d = .ok crossed) ∧ crossed.toJson ≠ .object [] := by
  obtain ⟨⟨d, bound, hd, hv⟩, hdecode⟩ := ofDoc_toJson.1 crossed proper_crossed
  have hvalue := hv bound (Nat.le_refl bound)
  refine ⟨proper_crossed, ⟨d, bound, hvalue, hdecode bound d hd hvalue⟩, fun hempty => ?_⟩
  exact absurd ((ofDoc_toJson.2.2 crossed).mp hempty) (by decide)

end Filter
end LiveQuery
