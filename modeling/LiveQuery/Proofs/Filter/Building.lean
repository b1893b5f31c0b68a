import LiveQuery.Filter.Basic
import Mathlib.Data.List.Forall2

/-!
# Filters built by calls

A filter is built by calls of builders, one after the other, and a filter of one kind of entity that
it is given is built by calls of its own. What counts is what each builder is called with last
(`EntityFilter.build_eq`, `Filter.compose_eq`), so the calls of one builder may be moved between those
of the others. `Filter.compose_eq_last` says so of both levels.
-/

namespace LiveQuery

/-- Of a list of calls, what the last one of a kind says; the first call only counts if no other one
is of the kind. -/
theorem getLast?_filterMap_cons {γ α : Type} (argument? : γ → Option α) (c : γ) (calls : List γ)
    (before : Option α) :
    ((c :: calls).filterMap argument?).getLast?.or before =
      (calls.filterMap argument?).getLast?.or ((argument? c).or before) := by
  cases hc : argument? c with
  | none => rw [List.filterMap_cons_none hc, Option.none_or]
  | some a =>
    rw [List.filterMap_cons_some hc, List.getLast?_cons]
    cases (calls.filterMap argument?).getLast? <;> rfl

section LastCalls

variable {γ σ κ : Type} {α : κ → Type} (step : σ → γ → σ) (of : ((k : κ) → Option (α k)) → σ)
  (argument? : γ → (k : κ) → Option (α k))

/-- Where each call changes what the last call of its kind says and nothing else, so do all calls
together. -/
theorem foldl_ofLast
    (hstep : ∀ last c, step (of last) c = of fun k => (argument? c k).or (last k))
    (calls : List γ) (last : (k : κ) → Option (α k)) :
    calls.foldl step (of last) =
      of fun k => (calls.filterMap (argument? · k)).getLast?.or (last k) := by
  induction calls generalizing last with
  | nil => rfl
  | cons c calls ih =>
    rw [List.foldl_cons, hstep, ih]
    congr 1
    funext k
    exact (getLast?_filterMap_cons (argument? · k) c calls (last k)).symm

/-- Where nothing has been said before, what is said last counts. -/
theorem foldl_ofLast_none
    (hstep : ∀ last c, step (of last) c = of fun k => (argument? c k).or (last k))
    (calls : List γ) :
    calls.foldl step (of fun _ => none) =
      of fun k => (calls.filterMap (argument? · k)).getLast? := by
  rw [foldl_ofLast step of argument? hstep]
  simp only [Option.or_none]

end LastCalls

namespace EntityFilter

/-- The builders. -/
inductive Builder where
  | ids
  | names
  | tags
  | stateTypes
  | stateNames
  deriving DecidableEq, Repr

/-- What the last call of each builder says, if there is one. -/
abbrev Last := Builder → Option (List String)

/-- What a call says, if it is one of a builder. -/
def Setting.argument? : Setting → Last
  | .ids values, .ids => some values
  | .names values, .names => some values
  | .tags values, .tags => some values
  | .stateTypes values, .stateTypes => some values
  | .stateNames values, .stateNames => some values
  | _, _ => none

/-- What a builder is called with, call by call. -/
def arguments (settings : List Setting) (b : Builder) : List (List String) :=
  settings.filterMap (·.argument? b)

/-- The state with two halves, if there is one of them. -/
def stateOf : Option (List String) → Option (List String) → Option StateFilter
  | none, none => none
  | types, names => some ⟨types.map AnyOf.mk, names.map AnyOf.mk⟩

/-- The filter in which every field is what the last call of its builder says, and is not set if
there is no such call. -/
def ofLast (last : Last) : EntityFilter where
  id := (last .ids).map AnyOf.mk
  name := (last .names).map AnyOf.mk
  tags := (last .tags).map AllOf.mk
  state := stateOf (last .stateTypes) (last .stateNames)
  deploymentId := none
  flowVersion := none
  isScheduleActive := none
  extra := []

/-- A call changes what the last call of its builder says, and nothing else. -/
theorem set_ofLast (last : Last) (c : Setting) :
    (ofLast last).set c = ofLast fun b => (c.argument? b).or (last b) := by
  cases c with
  | ids | names | tags => rfl
  | stateTypes values =>
    cases htypes : last .stateTypes <;> cases hnames : last .stateNames <;>
      simp [ofLast, set, stateTypes, Setting.argument?, stateOf, htypes, hnames, StateFilter.any]
  | stateNames values =>
    cases htypes : last .stateTypes <;> cases hnames : last .stateNames <;>
      simp [ofLast, set, stateNames, Setting.argument?, stateOf, htypes, hnames, StateFilter.any]

theorem build_eq (settings : List Setting) :
    build settings = ofLast fun b => (arguments settings b).getLast? :=
  foldl_ofLast_none set ofLast Setting.argument? set_ofLast settings

/-- The calls of each builder are the same ones in the same order, wherever they stand between
those of the others. -/
def Rearranged (settings others : List Setting) : Prop :=
  ∀ b, arguments settings b = arguments others b

theorem build_of_rearranged (settings others : List Setting) (h : Rearranged settings others) :
    build settings = build others := by
  rw [build_eq, build_eq, funext h]

end EntityFilter

namespace Filter

/-- What the builder of a field is called with; a filter of one kind of entity is itself built by
calls. -/
abbrev Field.Argument : Field → Type
  | limit | offset => UInt32
  | sort => String
  | flows | flowRuns | taskRuns | deployments => List EntityFilter.Setting

/-- One call of a builder, with the calls that build what it is given. -/
inductive Call where
  | limit (n : UInt32)
  | offset (n : UInt32)
  | sort (key : String)
  | flows (settings : List EntityFilter.Setting)
  | flowRuns (settings : List EntityFilter.Setting)
  | taskRuns (settings : List EntityFilter.Setting)
  | deployments (settings : List EntityFilter.Setting)

/-- The call with what has been built for it. -/
def Call.setting : Call → Setting
  | .limit n => .limit n
  | .offset n => .offset n
  | .sort key => .sort key
  | .flows settings => .flows (.build settings)
  | .flowRuns settings => .flowRuns (.build settings)
  | .taskRuns settings => .taskRuns (.build settings)
  | .deployments settings => .deployments (.build settings)

/-- The filter that calls on both levels build. -/
def compose (calls : List Call) : Filter := build (calls.map Call.setting)

/-- What the last call for each field says, if there is one. -/
abbrev Last := (f : Field) → Option f.Argument

/-- What a call says, if it is one for a field. -/
def Call.argument? : Call → Last
  | .limit n, .limit => some n
  | .offset n, .offset => some n
  | .sort key, .sort => some key
  | .flows settings, .flows => some settings
  | .flowRuns settings, .flowRuns => some settings
  | .taskRuns settings, .taskRuns => some settings
  | .deployments settings, .deployments => some settings
  | _, _ => none

/-- What the builder of a field is called with, call by call. -/
def arguments (calls : List Call) (f : Field) : List f.Argument := calls.filterMap (·.argument? f)

/-- The filter in which every field is what the last call for it says, and is not set if there is no
such call. -/
def ofLast (last : Last) : Filter where
  limit := last .limit
  offset := last .offset
  sort := last .sort
  flows := (last .flows).map EntityFilter.build
  flowRuns := (last .flowRuns).map EntityFilter.build
  taskRuns := (last .taskRuns).map EntityFilter.build
  deployments := (last .deployments).map EntityFilter.build
  extra := []

/-- A call changes what the last call for its field says, and nothing else. -/
theorem set_ofLast (last : Last) (c : Call) :
    (ofLast last).set c.setting = ofLast fun f => (c.argument? f).or (last f) := by
  cases c <;> rfl

theorem compose_eq (calls : List Call) :
    compose calls = ofLast fun f => (arguments calls f).getLast? := by
  rw [compose, build, List.foldl_map]
  exact foldl_ofLast_none (fun f c => set f c.setting) ofLast Call.argument? set_ofLast calls

/-! ## Other orders -/

/-- Two builders of a field are called with the same, but that calls which build a filter of one
kind of entity may come in another order. -/
def Field.Alike : (f : Field) → f.Argument → f.Argument → Prop
  | limit | offset | sort => Eq
  | flows | flowRuns | taskRuns | deployments => EntityFilter.Rearranged

/-- The calls for each field are alike and in the same order, wherever they stand between those for
the others. -/
def Rearranged (calls others : List Call) : Prop :=
  ∀ f, List.Forall₂ f.Alike (arguments calls f) (arguments others f)

theorem map_getLast?_of_forall₂ {α β : Type} {R : α → α → Prop} {g : α → β} {as bs : List α}
    (hR : ∀ a b, R a b → g a = g b) (h : List.Forall₂ R as bs) :
    as.getLast?.map g = bs.getLast?.map g := by
  have hmap : as.map g = bs.map g := by
    rw [← List.forall₂_eq_eq_eq, List.forall₂_map_left_iff, List.forall₂_map_right_iff]
    exact h.imp hR
  rw [← List.getLast?_map, ← List.getLast?_map, hmap]

/-- Calls on both levels may come in any order that keeps those of each builder in theirs. -/
theorem compose_of_rearranged {calls others : List Call} (h : Rearranged calls others) :
    compose calls = compose others := by
  have hnumber (f : Field) (hf : f.Alike = Eq) :
      (arguments calls f).getLast? = (arguments others f).getLast? := by
    have hforall : List.Forall₂ Eq (arguments calls f) (arguments others f) := hf ▸ h f
    rw [List.forall₂_eq_eq_eq] at hforall
    rw [hforall]
  have hentity := EntityFilter.build_of_rearranged
  rw [compose_eq, compose_eq, ofLast, ofLast, Filter.mk.injEq]
  refine ⟨hnumber .limit rfl, hnumber .offset rfl, hnumber .sort rfl, ?_, ?_, ?_, ?_, rfl⟩
  · exact map_getLast?_of_forall₂ hentity (h .flows)
  · exact map_getLast?_of_forall₂ hentity (h .flowRuns)
  · exact map_getLast?_of_forall₂ hentity (h .taskRuns)
  · exact map_getLast?_of_forall₂ hentity (h .deployments)

/-- Every field of a filter that calls build is what the last call for it says, and is not set if
there is none; so it is with the filters of single kinds of entities, whose state has two halves with
a builder each. A builder of one half leaves the other one, and all other fields, of any filter as
they are. Nothing is kept besides the fields. Calls in another order, on either level, build the same
filter if those of each builder keep their order. -/
theorem compose_eq_last (calls : List Call) :
    compose calls = ofLast (fun f => (arguments calls f).getLast?) ∧
    (∀ settings, EntityFilter.build settings =
      .ofLast fun b => (EntityFilter.arguments settings b).getLast?) ∧
    (∀ (e : EntityFilter) (values : List String),
      e.set (.stateTypes values) =
        { e with state := some ⟨some ⟨values⟩, e.state.bind StateFilter.name⟩ } ∧
      e.set (.stateNames values) =
        { e with state := some ⟨e.state.bind StateFilter.type, some ⟨values⟩⟩ }) ∧
    ∀ others, Rearranged calls others →
      compose others = compose calls ∧ (compose others).toJson = (compose calls).toJson := by
  refine ⟨compose_eq calls, EntityFilter.build_eq, ?_, ?_⟩
  · intro e values
    obtain ⟨id, name, tags, state, deploymentId, flowVersion, isScheduleActive, extra⟩ := e
    cases state with
    | none => exact ⟨rfl, rfl⟩
    | some state => exact ⟨rfl, rfl⟩
  · intro others h
    have hsame := compose_of_rearranged h
    exact ⟨hsame.symm, by rw [hsame]⟩

/-- Calls for two fields, among them several of one builder on both levels. -/
def mixed : List Call :=
  [.limit 5, .flowRuns [.tags ["old"]], .offset 40, .limit 20,
    .flowRuns [.stateNames ["Late"], .stateTypes ["RUNNING"], .tags ["prod"], .stateTypes []]]

/-- The same calls, with those for flow runs last and the names of states set last. -/
def moved : List Call :=
  [.offset 40, .limit 5, .limit 20, .flowRuns [.tags ["old"]],
    .flowRuns [.tags ["prod"], .stateTypes ["RUNNING"], .stateTypes [], .stateNames ["Late"]]]

theorem compose_eq_last_mixed :
    Rearranged mixed moved ∧ compose moved = compose mixed ∧
      compose mixed = { Filter.empty with
        limit := some 20
        offset := some 40
        flowRuns := some { EntityFilter.empty with
          tags := some ⟨["prod"]⟩
          state := some ⟨some ⟨[]⟩, some ⟨["Late"]⟩⟩ } } := by
  have hsettings : EntityFilter.Rearranged
      [.stateNames ["Late"], .stateTypes ["RUNNING"], .tags ["prod"], .stateTypes []]
      [.tags ["prod"], .stateTypes ["RUNNING"], .stateTypes [], .stateNames ["Late"]] := by
    intro b
    cases b <;> rfl
  have h : Rearranged mixed moved := by
    intro f
    cases f with
    | limit => exact .cons rfl (.cons rfl .nil)
    | offset => exact .cons rfl .nil
    | sort | flows | taskRuns | deployments => exact .nil
    | flowRuns => exact .cons (fun _ => rfl) (.cons hsettings .nil)
  obtain ⟨hlast, -, -, hother⟩ := compose_eq_last mixed
  exact ⟨h, (hother moved h).1, hlast.trans rfl⟩

end Filter
end LiveQuery
