import LiveQuery.Proofs.Json.Members

/-!
# What is kept of a value

`Keeps lost v w` compares two values path by path: `w` holds what `v` holds, except at the paths in
`lost` and where `v` holds null, and it holds nothing else. For two objects it is enough to compare
what stands at each key (`Keeps.object`).
-/

namespace LiveQuery.Json

/-- The value at a path of keys. -/
def at? : List String → Json → Option Json
  | [], v => some v
  | k :: path, object ms => (find? k ms).bind (at? path)
  | _ :: _, _ => none

/-- Equal values, or two objects; what objects hold is compared key by key. -/
def Alike : Json → Json → Prop
  | object _, object _ => True
  | v, w => v = w

theorem Alike.refl (v : Json) : Alike v v := by
  cases v <;> simp [Alike]

/-- Of what `v` holds `w` holds exactly what does not stand at a path in `lost`, null apart, and it
holds nothing else. -/
structure Keeps (lost : List String → Prop) (v w : Json) : Prop where
  kept_iff : ∀ path x, v.at? path = some x → x ≠ .null →
    ((∃ y, w.at? path = some y ∧ Alike x y) ↔ ¬ lost path)
  held : ∀ path y, w.at? path = some y → ∃ x, v.at? path = some x ∧ Alike x y

theorem Keeps.refl (v : Json) : Keeps (fun _ => False) v v :=
  ⟨fun _ x hx _ => ⟨fun _ => id, fun _ => ⟨x, hx, .refl x⟩⟩, fun _ y hy => ⟨y, hy, .refl y⟩⟩

/-- What becomes of the member at one key. -/
inductive MemberKept (lost : List String → Prop) : Option Json → Option Json → Prop
  | absent : MemberKept lost none none
  /-- Null leaves a field unset. -/
  | unset : MemberKept lost (some .null) none
  /-- The member is passed over. -/
  | passed (a : Option Json) (hlost : ∀ path, lost path) : MemberKept lost a none
  | kept {v w : Json} (h : Keeps lost v w) : MemberKept lost (some v) (some w)

/-- A member that is taken over as it is. -/
theorem MemberKept.refl {lost : List String → Prop} (hlost : ∀ path, ¬ lost path)
    (a : Option Json) : MemberKept lost a a := by
  have : lost = fun _ => False := funext fun path => eq_false (hlost path)
  subst this
  cases a with
  | none => exact .absent
  | some v => exact .kept (.refl v)

/-- One object keeps of another what it keeps key by key. -/
theorem Keeps.object {lost : List String → Prop} {ms ns : Members} (hnil : ¬ lost [])
    (hmember : ∀ k, MemberKept (fun path => lost (k :: path)) (find? k ms) (find? k ns)) :
    Keeps lost (.object ms) (.object ns) := by
  constructor
  case kept_iff =>
    intro path x hx hne
    cases path with
    | nil =>
      cases hx
      exact ⟨fun _ => hnil, fun _ => ⟨_, rfl, trivial⟩⟩
    | cons k path =>
      simp only [at?] at hx ⊢
      have hk := hmember k
      revert hx
      generalize find? k ms = a at hk ⊢
      generalize find? k ns = b at hk ⊢
      intro hx
      cases hk with
      | absent => cases hx
      | unset =>
        cases path with
        | nil => exact absurd (Option.some.inj hx).symm hne
        | cons => cases hx
      | passed a hlost =>
        refine ⟨?_, fun h => absurd (hlost path) h⟩
        rintro ⟨y, hy, -⟩
        cases hy
      | kept h => exact h.kept_iff path x hx hne
  case held =>
    intro path y hy
    cases path with
    | nil =>
      cases hy
      exact ⟨_, rfl, trivial⟩
    | cons k path =>
      simp only [at?] at hy ⊢
      have hk := hmember k
      revert hy
      generalize find? k ms = a at hk ⊢
      generalize find? k ns = b at hk ⊢
      intro hy
      cases hk with
      | absent | unset | passed => cases hy
      | kept h => exact h.held path y hy

end LiveQuery.Json
