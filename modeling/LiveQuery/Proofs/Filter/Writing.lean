import LiveQuery.Proofs.Filter.Encoding
import LiveQuery.Proofs.Json.Printing

/-!
# A filter as a text and as a value

A filter is written in two ways. Its text has the fields in their order and everything else behind
them, and gives a key twice where something else has the name of a field. Its value is an object
with sorted members, and of two with one key the later one counts. A reader of the text goes by the
same rule, on both levels of a filter: what it settles on is the value (`Filter.settled_encode`), so
the two never disagree (`Filter.parse_text`).
-/

namespace LiveQuery

open Json (Members Canonical Integral settledMembers)

/-! ## Members -/

namespace Json

theorem settledMembers_append (ms ns : List (String × Json)) :
    settledMembers (ms ++ ns) = settledMembers ms ++ settledMembers ns := by
  simp only [settledMembers_eq, List.map_append]

theorem settledMembers_member? {α : Type} (name : String) (encode : α → Json) (a : Option α) :
    settledMembers (member? name encode a) = member? name (fun a => (encode a).settled) a := by
  cases a with
  | none => rfl
  | some a => rfl

theorem settledMembers_filterMap {φ : Type} (text : φ → String) (g : φ → Option Json)
    (fields : List φ) :
    settledMembers (fields.filterMap fun f => (g f).map (text f, ·)) =
      fields.filterMap fun f => ((g f).map settled).map (text f, ·) := by
  rw [settledMembers_eq, List.map_filterMap]
  refine List.filterMap_congr fun f _ => ?_
  rw [Option.map_map, Option.map_map]
  rfl

theorem settledMembers_of_canonical {ms : Members} (h : Canonical (.object ms)) :
    settledMembers ms = ms := by
  cases h with
  | object _ hvalues => exact settledMembers_of_forall fun m hm => (hvalues m hm).settled_eq

/-- What is settled of fields that are set, and of everything else where that is settled already. -/
theorem settled_members {φ : Type} {text : φ → String} {g h : φ → Option Json} {fields : List φ}
    {extra : Members} (hg : ∀ f, (g f).map settled = h f) (hextra : Canonical (.object extra)) :
    (object ((fields.filterMap fun f => (g f).map (text f, ·)) ++ extra)).settled =
      obj ((fields.filterMap fun f => (h f).map (text f, ·)) ++ extra) := by
  rw [settled, settledMembers_append, settledMembers_of_canonical hextra, settledMembers_filterMap]
  simp only [hg, obj]

theorem integral_texts (values : List String) : Integral (texts values) := by
  refine .array fun v hv => ?_
  obtain ⟨s, -, rfl⟩ := List.mem_map.mp hv
  exact .string s

/-- Fields that are set, and everything else. -/
theorem integral_members {φ : Type} {text : φ → String} {g : φ → Option Json} {fields : List φ}
    {extra : Members} (hg : ∀ f x, g f = some x → Integral x) (hextra : Integral (.object extra)) :
    Integral (.object ((fields.filterMap fun f => (g f).map (text f, ·)) ++ extra)) := by
  refine .object fun m hm => ?_
  rcases List.mem_append.mp hm with hm | hm
  · obtain ⟨f, -, hf⟩ := List.mem_filterMap.mp hm
    obtain ⟨x, hx, rfl⟩ := Option.map_eq_some_iff.mp hf
    exact hg f x hx
  · cases hextra with
    | object hvalues => exact hvalues m hm

end Json

/-! ## Operators -/

theorem AnyOf.settled_encode (a : AnyOf) : (a.encode Json.object).settled = a.encode Json.obj := by
  show Json.obj [("any_", (Json.texts a.values).settled)] = _
  rw [(Json.canonical_texts a.values).settled_eq]
  rfl

theorem AllOf.settled_encode (a : AllOf) : (a.encode Json.object).settled = a.encode Json.obj := by
  show Json.obj [("all_", (Json.texts a.values).settled)] = _
  rw [(Json.canonical_texts a.values).settled_eq]
  rfl

theorem Equals.settled_encode (a : Equals) :
    (a.encode Json.object).settled = a.encode Json.obj := rfl

theorem StateFilter.settled_encode (s : StateFilter) :
    (s.encode Json.object).settled = s.encode Json.obj := by
  rw [encode, Json.settled, Json.settledMembers_append, Json.settledMembers_member?,
    Json.settledMembers_member?, funext AnyOf.settled_encode]
  rfl

theorem AnyOf.integral (a : AnyOf) : Integral (a.encode Json.object) :=
  .single (Json.integral_texts a.values)

theorem AllOf.integral (a : AllOf) : Integral (a.encode Json.object) :=
  .single (Json.integral_texts a.values)

theorem Equals.integral (a : Equals) : Integral (a.encode Json.object) :=
  .single (.bool a.value)

theorem StateFilter.integral (s : StateFilter) : Integral (s.encode Json.object) := by
  refine .object fun m hm => ?_
  rcases List.mem_append.mp hm with hm | hm
  · obtain ⟨-, a, -, hx⟩ := Json.mem_member?.mp hm
    exact hx ▸ a.integral
  · obtain ⟨-, a, -, hx⟩ := Json.mem_member?.mp hm
    exact hx ▸ a.integral

/-! ## Entity filters -/

namespace EntityFilter

variable {e : EntityFilter}

theorem settled_get? (e : EntityFilter) (f : Field) :
    (e.get? Json.object f).map Json.settled = e.get? Json.obj f := by
  cases f <;> simp only [get?, Option.map_map] <;> refine Option.map_congr fun a _ => ?_
  case id | name | deploymentId | flowVersion => exact a.settled_encode
  case tags => exact a.settled_encode
  case state => exact a.settled_encode
  case isScheduleActive => exact a.settled_encode

theorem settled_encode (h : Canonical (.object e.extra)) :
    (e.encode Json.object).settled = e.encode Json.obj :=
  Json.settled_members (settled_get? e) h

theorem integral (h : Integral (.object e.extra)) : Integral (e.encode Json.object) := by
  refine Json.integral_members (fun f x hx => ?_) h
  cases f <;> obtain ⟨a, -, rfl⟩ := Option.map_eq_some_iff.mp hx
  case id | name | deploymentId | flowVersion => exact a.integral
  case tags => exact a.integral
  case state => exact a.integral
  case isScheduleActive => exact a.integral

end EntityFilter

/-! ## Filters -/

namespace Filter

variable {f : Filter}

/-- What a filter keeps besides its fields, itself and in what it asks of each kind of entity, has a
property. -/
structure EachExtra (P : Json → Prop) (f : Filter) : Prop where
  own : P (.object f.extra)
  entities : ∀ e, some e ∈ [f.flows, f.flowRuns, f.taskRuns, f.deployments] → P (.object e.extra)

theorem settled_get? (h : f.EachExtra Canonical) (field : Field) :
    (f.get? Json.object field).map Json.settled = f.get? Json.obj field := by
  cases field <;> simp only [get?, Option.map_map]
  case limit | offset | sort => rfl
  case flows | flowRuns | taskRuns | deployments =>
    refine Option.map_congr fun e he => ?_
    exact EntityFilter.settled_encode (h.entities e (by simp [he]))

/-- What a reader of the text settles on is the value of the filter. -/
theorem settled_encode (h : f.EachExtra Canonical) : (f.encode Json.object).settled = f.toJson :=
  Json.settled_members (settled_get? h) h.own

theorem integral (h : f.EachExtra Integral) : Integral (f.encode Json.object) := by
  refine Json.integral_members (fun field x hx => ?_) h.own
  cases field <;> obtain ⟨a, ha, rfl⟩ := Option.map_eq_some_iff.mp hx
  case limit | offset =>
    have hlt : a.toNat < 0x100000000 := a.toNat_lt
    exact .nat (by omega)
  case sort => exact .string a
  case flows | flowRuns | taskRuns | deployments =>
    exact EntityFilter.integral (h.entities a (by simp [ha]))

/-- The text of a filter is read as its value, whatever names there are besides the fields: all that
is asked is that numbers are integers that a reader keeps, and that the brackets in the text do not
go down further than a reader does. -/
theorem parse_text (hextra : f.EachExtra Canonical) (hintegral : f.EachExtra Integral)
    (hnesting : (f.encode Json.object).nesting ≤ 127) : Json.parse f.text = .ok f.toJson := by
  have hread : Json.parse f.text = .ok (f.encode Json.object).settled :=
    Json.parse_compact (integral hintegral) hnesting
  rw [hread, settled_encode hextra]

/-- A filter that has the name of a field among everything else, on both levels. -/
def doubled : Filter :=
  { empty with
    limit := some 1
    flows := some { EntityFilter.empty with id := some ⟨["a"]⟩, extra := [("id", .null)] }
    extra := [("limit", .string "x")] }

theorem eachExtra_doubled {P : Json → Prop} (hid : P (.object [("id", .null)]))
    (hlimit : P (.object [("limit", .string "x")])) : doubled.EachExtra P where
  own := hlimit
  entities e he := by
    obtain rfl : e = { EntityFilter.empty with id := some ⟨["a"]⟩, extra := [("id", .null)] } := by
      simpa [doubled, empty] using he
    exact hid

theorem parse_text_doubled :
    doubled.text =
      "\x7b\"limit\":1,\"flows\":\x7b\"id\":\x7b\"any_\":[\"a\"]\x7d,\"id\":null\x7d,\"limit\":\"x\"\x7d" ∧
    doubled.toJson =
      .object [("flows", .object [("id", .null)]), ("limit", .string "x")] ∧
    Json.parse doubled.text = .ok doubled.toJson := by
  refine ⟨by decide, rfl, parse_text ?_ ?_ (by decide)⟩
  · exact eachExtra_doubled (.single .null) (.single (.string "x"))
  · exact eachExtra_doubled (.single .null) (.single (.string "x"))

end Filter
end LiveQuery
