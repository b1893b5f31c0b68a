import Mathlib.Data.List.Nodup
import LiveQuery.Filter.Basic
import LiveQuery.Proofs.Filter.Site

/-!
# What decoding a filter keeps

Operators pass over members they do not have; entity filters and filters keep every member, in a
field or among everything else. A `Record` is what the two have in common: named fields, and
members of any other name. `Record.ReadBy` says that a record is read as it stands, `Record.Taken`
what reading one member changes, and `Record.Reads` is the invariant of reading one after the other;
from them `Record.ReadBy.keepsAll` follows for both.
-/

namespace LiveQuery

open Json (Keeps MemberKept Members Doc OpenRecord Sorted find?)
open LiveQuery.Filter (Site Foreign Spelled KeepsAll Held below)

variable {depth : Nat}

/-! ## Operators -/

/-- One key, for texts of which one is to be there. -/
def AnyOf.sites : List Site := [⟨[], ["any_"]⟩]

theorem AnyOf.keepsAll : KeepsAll (AnyOf.ofDoc depth) (AnyOf.encode Json.obj) AnyOf.sites depth := by
  intro d a v ha hv hs
  simp only [ofDoc, bind_eq_ok, pure_eq_ok] at ha
  obtain ⟨values, hvalues, rfl⟩ := ha
  exact Filter.keepsAll_single Doc.texts_eq_ok "AnyOf" "any_" hvalues hv hs

/-- One key, for texts which are all to be there. -/
def AllOf.sites : List Site := [⟨[], ["all_"]⟩]

theorem AllOf.keepsAll : KeepsAll (AllOf.ofDoc depth) (AllOf.encode Json.obj) AllOf.sites depth := by
  intro d a v ha hv hs
  simp only [ofDoc, bind_eq_ok, pure_eq_ok] at ha
  obtain ⟨values, hvalues, rfl⟩ := ha
  exact Filter.keepsAll_single Doc.texts_eq_ok "AllOf" "all_" hvalues hv hs

/-- One key, for a truth value. -/
def Equals.sites : List Site := [⟨[], ["eq_"]⟩]

theorem Equals.keepsAll :
    KeepsAll (Equals.ofDoc depth) (Equals.encode Json.obj) Equals.sites depth := by
  intro d a v ha hv hs
  simp only [ofDoc, bind_eq_ok, pure_eq_ok] at ha
  obtain ⟨value, hvalue, rfl⟩ := ha
  exact Filter.keepsAll_single Doc.truth_eq_ok "Equals" "eq_" hvalue hv hs

namespace StateFilter

/-- Two keys, each for an operator. -/
def sites : List Site :=
  ⟨[], ["type", "name"]⟩
    :: (AnyOf.sites.map (Site.under "type") ++ AnyOf.sites.map (Site.under "name"))

/-- The two halves while they are read, as members. -/
def held (halves : Option (Option AnyOf) × Option (Option AnyOf)) (k : String) : Option Json :=
  if k = "type" then halves.1.join.map (AnyOf.encode Json.obj)
  else if k = "name" then halves.2.join.map (AnyOf.encode Json.obj)
  else none

theorem foreign_half {k : String} {path : List String} (hk : k = "type" ∨ k = "name") :
    Foreign sites (k :: path) ↔ Foreign AnyOf.sites path := by
  have hbelow : below k sites = AnyOf.sites := by
    rcases hk with rfl | rfl <;> decide
  rw [Filter.foreign_cons_of_known, hbelow]
  rcases hk with rfl | rfl <;> decide

/-- A half that is read for the first time. -/
theorem once_half {name k : String} {p : Json.Position} {d : Doc} {x : Json}
    {old new : Option (Option AnyOf)} (hk : k = "type" ∨ k = "name")
    (h : Doc.once name p old (half depth d) = .ok new) (hx : d.value depth = .ok x)
    (hs : Spelled (below k sites) x) :
    MemberKept (fun path => Foreign sites (k :: path)) (some x)
      (new.join.map (AnyOf.encode Json.obj)) := by
  have hbelow : below k sites = AnyOf.sites := by
    rcases hk with rfl | rfl <;> decide
  have hlost : (fun path => Foreign sites (k :: path)) = Foreign AnyOf.sites :=
    funext fun path => propext (foreign_half hk)
  cases old with
  | some _ => cases h
  | none =>
    simp only [Doc.once, bind_eq_ok, pure_eq_ok] at h
    obtain ⟨a, ha, rfl⟩ := h
    rw [hlost]
    exact AnyOf.keepsAll.optional ha hx (hbelow ▸ hs)

theorem held_take {halves halves' : Option (Option AnyOf) × Option (Option AnyOf)}
    {name : String} {p : Json.Position} {d : Doc} {acc : Members} {x : Json}
    (h : Held sites (held halves) acc) (htake : take depth halves name p d = .ok halves')
    (hx : d.value depth = .ok x) : Held sites (held halves') (Json.insert name x acc) := by
  unfold take at htake
  split at htake
  · rename_i hname
    subst hname
    simp only [bind_eq_ok, pure_eq_ok] at htake
    obtain ⟨new, hnew, rfl⟩ := htake
    refine h.insert (once_half (.inl rfl) hnew hx) fun k hk => ?_
    rw [held, held, if_neg (Ne.symm hk), if_neg (Ne.symm hk)]
  · rename_i htype
    split at htake
    · rename_i hname
      subst hname
      simp only [bind_eq_ok, pure_eq_ok] at htake
      obtain ⟨new, hnew, rfl⟩ := htake
      refine h.insert (once_half (.inr rfl) hnew hx) fun k hk => ?_
      simp only [held, if_neg (Ne.symm hk)]
    · rename_i hname
      simp only [bind_eq_ok, pure_eq_ok] at htake
      obtain ⟨-, -, rfl⟩ := htake
      refine h.insert (fun _ => ?_) fun k _ => rfl
      have hnone : held halves name = none := by rw [held, if_neg htype, if_neg hname]
      rw [hnone]
      refine .passed _ fun path => Filter.foreign_cons.mpr (.inl ⟨_, List.mem_cons_self .., rfl, ?_⟩)
      simp [htype, hname]

theorem find?_encode (s : StateFilter) (k : String) :
    find? k (Json.ofMembers (Json.member? "type" (AnyOf.encode Json.obj) s.type
      ++ Json.member? "name" (AnyOf.encode Json.obj) s.name)) = held (some s.type, some s.name) k := by
  obtain ⟨type, name⟩ := s
  rw [Json.find?_ofMembers, Json.last?_append]
  by_cases htype : k = "type"
  · subst htype
    cases type <;> cases name <;> simp [held, Json.member?, Json.last?]
  · by_cases hname : k = "name"
    · subst hname
      cases type <;> cases name <;> simp [held, Json.member?, Json.last?]
    · cases type <;> cases name <;>
        simp [held, Json.member?, Json.last?, htype, hname, Ne.symm htype, Ne.symm hname]

theorem keepsAll : KeepsAll (ofDoc depth) (encode Json.obj) sites depth := by
  intro d s v hd hv hs
  cases d with
  | object start members stop =>
    obtain ⟨depth', ms, halves, after, hfold, hd, hms, rfl⟩ := Doc.exists_fold hd hv
    obtain rfl := pure_eq_ok.mp hd
    have hheld : Held sites (held halves) (Json.ofMembers ms) :=
      Doc.foldMembers_induct (I := fun halves acc => Held sites (held halves) acc)
        (fun _ _ _ _ _ _ _ h htake hx => held_take h htake hx)
        (.nil fun k => by simp [held]) hfold hms
    exact hheld.keeps hs fun k => find?_encode _ k
  | array start items stop =>
    obtain ⟨vs, rfl⟩ := Doc.value_array hv
    exact absurd rfl (hs _ (List.mem_cons_self ..) vs)
  | fault | broken | null | bool | number | string =>
    exact absurd hd (Doc.mismatch_ne_ok _ _ s)

end StateFilter

/-! ## Records that keep what they do not know -/

/-- A record with named fields and members of any other name. A field is encoded where it is set,
and operators stand in its value at the sites of the field. -/
structure Record (σ φ : Type) where
  all : List φ
  text : φ → String
  get? : σ → φ → Option Json
  extra : σ → Members
  sites : φ → List Site
  mem_all : ∀ f, f ∈ all
  nodup : (all.map text).Nodup

namespace Record

variable {σ φ : Type} (R : Record σ φ)

/-- The fields that are set, and everything else, as members. -/
def members (s : σ) : List (String × Json) :=
  (R.all.filterMap fun f => (R.get? s f).map (R.text f, ·)) ++ R.extra s

/-- The sites in the whole record. -/
def allSites : List Site := R.all.flatMap fun f => (R.sites f).map (Site.under (R.text f))

/-- What the record holds at a key. -/
def held (s : σ) (k : String) : Option Json :=
  match R.all.find? fun f => R.text f = k with
  | some f => R.get? s f
  | none => find? k (R.extra s)

/-- What is held besides the fields is in order and is not mistaken for one of them. -/
structure Apart (s : σ) : Prop where
  sorted : Sorted (R.extra s)
  apart : ∀ f, find? (R.text f) (R.extra s) = none

/-- What is held has all that was read, and is apart from the fields where it is no field. -/
structure Reads (s : σ) (acc : Members) : Prop extends R.Apart s where
  held : Held R.allSites (R.held s) acc

variable {R} {s s' : σ} {f : φ} {acc ms : Members} {name k : String} {x : Json}

theorem text_injective (R : Record σ φ) : Function.Injective R.text := fun f g h =>
  List.inj_on_of_nodup_map R.nodup (R.mem_all f) (R.mem_all g) h

theorem text_of_find? (h : R.all.find? (fun f => R.text f = k) = some f) : R.text f = k := by
  simpa using List.find?_some h

theorem text_ne_of_find? (h : R.all.find? (fun f => R.text f = k) = none) (f : φ) :
    R.text f ≠ k := by
  simpa using List.find?_eq_none.mp h f (R.mem_all f)

theorem find?_text (R : Record σ φ) (f : φ) :
    R.all.find? (fun g => R.text g = R.text f) = some f := by
  cases h : R.all.find? (fun g => R.text g = R.text f) with
  | none => exact absurd rfl (text_ne_of_find? h f)
  | some g => rw [R.text_injective (text_of_find? h)]

theorem held_text (s : σ) (f : φ) : R.held s (R.text f) = R.get? s f := by
  rw [held, R.find?_text f]

theorem held_of_ne (s : σ) (hk : ∀ f, R.text f ≠ k) : R.held s k = find? k (R.extra s) := by
  have hfind : R.all.find? (fun f => R.text f = k) = none :=
    List.find?_eq_none.mpr fun f _ => by simpa using hk f
  rw [held, hfind]

theorem below_text {t : Site} : t ∈ below (R.text f) R.allSites ↔ t ∈ R.sites f := by
  simp only [Filter.mem_below, allSites, List.mem_flatMap, List.mem_map, Site.under,
    Site.mk.injEq, List.cons.injEq]
  constructor
  · rintro ⟨g, -, u, hu, ⟨hg, hpath⟩, hkeys⟩
    obtain rfl := R.text_injective hg
    obtain ⟨path, keys⟩ := t
    obtain rfl : u.path = path := hpath
    obtain rfl : u.keys = keys := hkeys
    exact hu
  · intro ht
    exact ⟨f, R.mem_all f, t, ht, ⟨rfl, rfl⟩, rfl⟩

theorem below_of_ne (hk : ∀ f, R.text f ≠ k) : below k R.allSites = [] := by
  refine List.eq_nil_iff_forall_not_mem.mpr fun t ht => ?_
  simp only [Filter.mem_below, allSites, List.mem_flatMap, List.mem_map, Site.under,
    Site.mk.injEq, List.cons.injEq] at ht
  obtain ⟨f, -, u, -, ⟨hf, -⟩, -⟩ := ht
  exact hk f hf

theorem foreign_allSites {path : List String} :
    Foreign R.allSites (k :: path) ↔ Foreign (below k R.allSites) path := by
  refine Filter.foreign_cons_of_known fun s hs hpath => ?_
  simp only [allSites, List.mem_flatMap, List.mem_map] at hs
  obtain ⟨f, -, u, -, rfl⟩ := hs
  cases hpath

theorem foreign_text {path : List String} :
    Foreign R.allSites (R.text f :: path) ↔ Foreign (R.sites f) path := by
  rw [foreign_allSites]
  simp only [Foreign, below_text]

theorem Apart.nil (hextra : R.extra s = []) : R.Apart s where
  sorted := hextra ▸ Json.sorted_nil
  apart := fun f => by rw [hextra, Json.find?_nil]

theorem Apart.congr (h : R.Apart s) (hextra : R.extra s' = R.extra s) : R.Apart s' where
  sorted := hextra ▸ h.sorted
  apart := fun f => hextra ▸ h.apart f

theorem Apart.insert (h : R.Apart s) (hname : ∀ f, R.text f ≠ name)
    (hextra : R.extra s' = Json.insert name x (R.extra s)) : R.Apart s' where
  sorted := hextra ▸ Json.sorted_insert name x h.sorted
  apart := fun f => by
    rw [hextra, Json.find?_insert, if_neg (Ne.symm (hname f)), h.apart]

theorem find?_members (h : R.Apart s) (k : String) :
    find? k (Json.ofMembers (R.members s)) = R.held s k := by
  rw [Json.find?_ofMembers, members, Json.last?_append, Json.last?_of_sorted h.sorted]
  by_cases hk : ∃ f, R.text f = k
  · obtain ⟨f, rfl⟩ := hk
    rw [h.apart, Option.none_or, Json.last?_filterMap (R.get? s) R.nodup (R.mem_all f), held_text]
  · have hne : ∀ f, R.text f ≠ k := fun f hf => hk ⟨f, hf⟩
    rw [Json.last?_filterMap_of_ne (R.get? s) fun f _ => hne f, Option.or_none, held_of_ne s hne]

theorem Reads.nil (hget : ∀ f, R.get? s f = none) (hextra : R.extra s = []) : R.Reads s [] where
  held := .nil fun k => by
    by_cases hk : ∃ f, R.text f = k
    · obtain ⟨f, rfl⟩ := hk
      rw [held_text, hget]
    · rw [held_of_ne s fun f hf => hk ⟨f, hf⟩, hextra, Json.find?_nil]
  toApart := .nil hextra

/-- What setting a field can change: no other field, and nothing that is held besides the fields. -/
structure Sets (R : Record σ φ) (depth : Nat) (s : σ) (f : φ) (d : Doc) (s' : σ) : Prop where
  extra : R.extra s' = R.extra s
  other : ∀ g, g ≠ f → R.get? s' g = R.get? s g
  kept : ∀ x, d.value depth = .ok x → Spelled (R.sites f) x →
    MemberKept (Foreign (R.sites f)) (some x) (R.get? s' f)

/-- What reading a member can change: it is a field that is set, or it is added to everything else as
it is. -/
inductive Taken (R : Record σ φ) (depth : Nat) (s : σ) (name : String) (d : Doc) (s' : σ) : Prop
  | field (f : φ) (hname : R.text f = name) (hsets : R.Sets depth s f d s')
  | rest (x : Json) (hname : ∀ f, R.text f ≠ name) (hx : d.value depth = .ok x)
      (hget : ∀ f, R.get? s' f = R.get? s f)
      (hextra : R.extra s' = Json.insert name x (R.extra s))

variable {d : Doc}

theorem Apart.taken (h : R.Apart s) (htaken : R.Taken depth s name d s') : R.Apart s' := by
  cases htaken with
  | field f hname hsets => exact h.congr hsets.extra
  | rest x hname hx hget hextra => exact h.insert hname hextra

theorem Reads.field (h : R.Reads s acc) (hsets : R.Sets depth s f d s')
    (hx : d.value depth = .ok x) : R.Reads s' (Json.insert (R.text f) x acc) where
  held := by
    refine h.held.insert (fun hs => ?_) fun k hk => ?_
    · have hlost : (fun path => Foreign R.allSites (R.text f :: path)) = Foreign (R.sites f) :=
        funext fun path => propext foreign_text
      rw [hlost, held_text]
      exact hsets.kept x hx fun t ht => hs t (below_text.mpr ht)
    · by_cases hg : ∃ g, R.text g = k
      · obtain ⟨g, rfl⟩ := hg
        rw [held_text, held_text, hsets.other g fun he => hk (he ▸ rfl)]
      · have hne : ∀ g, R.text g ≠ k := fun g hk => hg ⟨g, hk⟩
        rw [held_of_ne s hne, held_of_ne s' hne, hsets.extra]
  toApart := h.toApart.congr hsets.extra

theorem Reads.rest (h : R.Reads s acc) (hname : ∀ f, R.text f ≠ name)
    (hget : ∀ f, R.get? s' f = R.get? s f)
    (hextra : R.extra s' = Json.insert name x (R.extra s)) :
    R.Reads s' (Json.insert name x acc) where
  held := by
    refine h.held.insert (fun _ => ?_) fun k hk => ?_
    · rw [held_of_ne s' hname, hextra, Json.find?_insert, if_pos rfl]
      refine .refl (fun path => ?_) _
      rw [foreign_allSites, below_of_ne hname]
      exact Filter.not_foreign_of_nil path
    · by_cases hf : ∃ f, R.text f = k
      · obtain ⟨f, rfl⟩ := hf
        rw [held_text, held_text, hget]
      · have hne : ∀ f, R.text f ≠ k := fun f hk => hf ⟨f, hk⟩
        rw [held_of_ne s hne, held_of_ne s' hne, hextra, Json.find?_insert, if_neg hk]
  toApart := h.toApart.insert hname hextra

/-- One member is read. -/
theorem Reads.taken (h : R.Reads s acc) (htaken : R.Taken depth s name d s')
    (hx : d.value depth = .ok x) : R.Reads s' (Json.insert name x acc) := by
  cases htaken with
  | field f hname hsets =>
    subst hname
    exact h.field hsets hx
  | rest y hname hy hget hextra =>
    obtain rfl := Except.ok.inj (hx.symm.trans hy)
    exact h.rest hname hget hextra

/-- What reading goes by is the record: names stand for its fields, it starts empty, and setting a
field and keeping a member change nothing else. -/
structure ReadBy (R : Record σ φ) (o : OpenRecord σ φ) : Prop where
  field?_eq : ∀ name, o.field? name = R.all.find? fun f => R.text f = name
  get?_empty : ∀ f, R.get? o.empty f = none
  extra_empty : R.extra o.empty = []
  sets_of_setField : ∀ {depth s d f s'}, o.setField depth s d f = .ok s' → R.Sets depth s f d s'
  get?_keep : ∀ name x s f, R.get? (o.keep name x s) f = R.get? s f
  extra_keep : ∀ name x s, R.extra (o.keep name x s) = Json.insert name x (R.extra s)

namespace ReadBy

variable [DecidableEq φ] {o : OpenRecord σ φ}

theorem taken_of_take (h : R.ReadBy o) {held held' : List φ × σ} {p : Json.Position}
    (htake : o.take depth held name p d = .ok held') : R.Taken depth held.2 name d held'.2 := by
  unfold OpenRecord.take at htake
  rw [h.field?_eq] at htake
  split at htake
  · rename_i f hf
    split at htake
    · cases htake
    · simp only [bind_eq_ok, pure_eq_ok] at htake
      obtain ⟨next, hnext, rfl⟩ := htake
      exact .field f (text_of_find? hf) (h.sets_of_setField hnext)
  · rename_i hname
    simp only [bind_eq_ok, pure_eq_ok] at htake
    obtain ⟨x, hx, rfl⟩ := htake
    exact .rest x (text_ne_of_find? hname) hx (h.get?_keep name x held.2)
      (h.extra_keep name x held.2)

/-- What a record that has been read holds besides its fields has no name of a field. -/
theorem apart_of_ofDoc (h : R.ReadBy o) (hs : o.ofDoc depth d = .ok s) : R.Apart s := by
  cases d with
  | object start members stop =>
    simp only [OpenRecord.ofDoc, bind_eq_ok, pure_eq_ok] at hs
    obtain ⟨depth', -, ⟨held, after⟩, hfold, rfl⟩ := hs
    apply Doc.foldMembers_keeps (I := fun held => R.Apart held.2) ?_ (.nil h.extra_empty) hfold
    intro held held' name p d hheld htake
    exact hheld.taken (h.taken_of_take htake)
  | fault | broken | null | bool | number | string | array =>
    exact absurd hs (Doc.mismatch_ne_ok _ _ s)

/-- All members are read, one by one, and what is held in the end is encoded. -/
theorem keepsAll (h : R.ReadBy o) :
    KeepsAll (o.ofDoc depth) (fun s => .obj (R.members s)) R.allSites depth := by
  intro d s v hd hv hs
  cases d with
  | object start members stop =>
    obtain ⟨depth', ms, held, after, hfold, hd, hms, rfl⟩ := Doc.exists_fold hd hv
    obtain rfl := pure_eq_ok.mp hd
    have hreads : R.Reads held.2 (Json.ofMembers ms) := by
      apply Doc.foldMembers_induct (I := fun held acc => R.Reads held.2 acc) ?_
        (.nil h.get?_empty h.extra_empty) hfold hms
      intro held held' name p d acc x hheld htake hx
      exact hheld.taken (h.taken_of_take htake) hx
    exact hreads.held.keeps hs (find?_members hreads.toApart)
  | fault | broken | null | bool | number | string | array =>
    exact absurd hd (Doc.mismatch_ne_ok _ _ s)

end ReadBy
end Record

/-! ## Entity filters -/

namespace EntityFilter

/-- The sites in the value of a field. -/
def Field.sites : Field → List Site
  | .id | .name | .deploymentId | .flowVersion => AnyOf.sites
  | .tags => AllOf.sites
  | .state => StateFilter.sites
  | .isScheduleActive => Equals.sites

/-- An entity filter and its fields. -/
def record : Record EntityFilter Field where
  all := Field.all
  text := Field.text
  get? := get? Json.obj
  extra := extra
  sites := Field.sites
  mem_all f := by cases f <;> decide
  nodup := by decide

/-- Every operator in an entity filter. -/
def sites : List Site := record.allSites

theorem sets_of_setField {e e' : EntityFilter} {d : Doc} {f : Field}
    (h : e.setField depth d f = .ok e') : record.Sets depth e f d e' := by
  cases f <;> simp only [setField, bind_eq_ok, pure_eq_ok] at h <;>
    obtain ⟨a, ha, rfl⟩ := h <;>
    refine ⟨rfl, fun g hg => by cases g <;> first | rfl | exact absurd rfl hg, fun x hx hs => ?_⟩
  case id | name | deploymentId | flowVersion => exact AnyOf.keepsAll.optional ha hx hs
  case tags => exact AllOf.keepsAll.optional ha hx hs
  case state => exact StateFilter.keepsAll.optional ha hx hs
  case isScheduleActive => exact Equals.keepsAll.optional ha hx hs

theorem readBy : record.ReadBy openRecord where
  field?_eq _ := rfl
  get?_empty f := by cases f <;> rfl
  extra_empty := rfl
  sets_of_setField := sets_of_setField
  get?_keep _ _ _ f := by cases f <;> rfl
  extra_keep _ _ _ := rfl

theorem keepsAll : KeepsAll (ofDoc depth) (encode Json.obj) sites depth := readBy.keepsAll

end EntityFilter

/-! ## Filters -/

namespace Filter

/-- The sites in the value of a field. -/
def Field.sites : Field → List Site
  | .limit | .offset | .sort => []
  | .flows | .flowRuns | .taskRuns | .deployments => EntityFilter.sites

/-- A filter and its fields. -/
def record : Record Filter Field where
  all := Field.all
  text := Field.text
  get? := get? Json.obj
  extra := extra
  sites := Field.sites
  mem_all f := by cases f <;> decide
  nodup := by decide

/-- Every operator in a filter. -/
def sites : List Site := record.allSites

theorem sets_of_setField {b b' : Filter} {d : Doc} {f : Field}
    (h : b.setField depth d f = .ok b') : record.Sets depth b f d b' := by
  cases f <;> simp only [setField, bind_eq_ok, pure_eq_ok] at h <;>
    obtain ⟨a, ha, rfl⟩ := h <;>
    refine ⟨rfl, fun g hg => by cases g <;> first | rfl | exact absurd rfl hg, fun x hx hs => ?_⟩
  case limit | offset => exact KeepsAll.optional (keepsAll_of_eq Doc.u32_eq_ok) ha hx hs
  case sort => exact KeepsAll.optional (keepsAll_of_eq Doc.text_eq_ok) ha hx hs
  case flows | flowRuns | taskRuns | deployments => exact EntityFilter.keepsAll.optional ha hx hs

theorem readBy : record.ReadBy openRecord where
  field?_eq _ := rfl
  get?_empty f := by cases f <;> rfl
  extra_empty := rfl
  sets_of_setField := sets_of_setField
  get?_keep _ _ _ f := by cases f <;> rfl
  extra_keep _ _ _ := rfl

theorem keepsAll : KeepsAll (ofDoc depth) toJson sites depth := readBy.keepsAll

/-- Of a value that decodes as a filter, its operators spelled as objects, the filter has everything
but what stands behind a member that an operator does not have, null apart; and it has nothing
else. -/
theorem has_iff_not_foreign {d : Doc} {f : Filter} {v : Json} (hf : ofDoc depth d = .ok f)
    (hv : d.value depth = .ok v) (hs : Spelled sites v) :
    (∀ path x, v.at? path = some x → x ≠ .null →
      ((∃ y, f.toJson.at? path = some y ∧ Json.Alike x y) ↔ ¬ Foreign sites path)) ∧
    ∀ path y, f.toJson.at? path = some y → ∃ x, v.at? path = some x ∧ Json.Alike x y := by
  have hkeeps : Keeps (Foreign sites) v f.toJson := keepsAll hf hv hs
  exact ⟨hkeeps.kept_iff, hkeeps.held⟩

/-- A body with a second member in the operator for the identifiers of flows. -/
def twoMembers : String :=
  "\x7b\"flows\":\x7b\"id\":\x7b\"any_\":[\"a\"],\"is_null_\":true\x7d\x7d\x7d"

/-- Whether the second member is there, and is true. -/
def hasSecond (v : Json) : Bool :=
  match v.at? ["flows", "id", "is_null_"] with
  | some (.bool true) => true
  | _ => false

theorem hasSecond_iff {v : Json} :
    hasSecond v = true ↔ v.at? ["flows", "id", "is_null_"] = some (.bool true) := by
  unfold hasSecond
  split
  · simp [*]
  · rename_i hne
    simpa using hne

theorem has_iff_not_foreign_second_member :
    ∃ d f v, ofDoc Json.depthLimit d = .ok f ∧ d.value Json.depthLimit = .ok v ∧
      Spelled sites v ∧ v.at? ["flows", "id", "is_null_"] = some (.bool true) ∧
      ¬ ∃ y, f.toJson.at? ["flows", "id", "is_null_"] = some y ∧ Json.Alike (.bool true) y := by
  obtain ⟨v, hv, hsecond⟩ := exists_ok_of_any (x := Json.parse twoMembers)
    (p := fun v => hasSecond v && decide (Spelled sites v)) (by decide +kernel)
  obtain ⟨f, hf, -⟩ := exists_ok_of_any (x := parse twoMembers) (p := fun _ => true)
    (by decide +kernel)
  simp only [Bool.and_eq_true, hasSecond_iff, decide_eq_true_iff] at hsecond
  obtain ⟨hx, hs⟩ := hsecond
  let layout : Doc := (Doc.ofGlyphs (Glyph.ofString twoMembers)).1
  have hd : ofDoc Json.depthLimit layout = .ok f := Doc.ok_of_decodeAll hf
  have hdv : layout.value Json.depthLimit = .ok v := Doc.ok_of_decodeAll hv
  have hforeign : Foreign sites ["flows", "id", "is_null_"] :=
    ⟨⟨["flows", "id"], ["any_"]⟩, by decide, "is_null_", [], rfl, by decide⟩
  refine ⟨layout, f, v, hd, hdv, hs, hx, fun hy => ?_⟩
  exact ((has_iff_not_foreign hd hdv hs).1 _ _ hx Json.noConfusion).mp hy hforeign

/-- An operator with a second member loses it. -/
theorem second_member_lost :
    ∃ v f, Json.parse twoMembers = .ok v ∧ parse twoMembers = .ok f ∧
      v.at? ["flows", "id", "is_null_"] = some (.bool true) ∧
      f.toJson.at? ["flows", "id", "is_null_"] = none := by
  obtain ⟨v, hv, hx⟩ := exists_ok_of_any (x := Json.parse twoMembers) (p := hasSecond)
    (by decide +kernel)
  obtain ⟨f, hf, hy⟩ := exists_ok_of_any (x := parse twoMembers)
    (p := fun f => (f.toJson.at? ["flows", "id", "is_null_"]).isNone) (by decide +kernel)
  exact ⟨v, f, hv, hf, hasSecond_iff.mp hx, by simpa using hy⟩

end Filter
end LiveQuery
