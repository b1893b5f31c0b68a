import LiveQuery.Proofs.Text.Order
import LiveQuery.Settings.Logging

/-!
# Directives in one order

The levels of single components come in whatever order they were kept. Sorted, they are the one
list of these levels in which the octets of the names ascend (`ComponentLevels.IsListing`), so the
directives are the same for every order: `ComponentLevels.directives_of_perm`.
-/

namespace LiveQuery.ComponentLevels

variable {c d : ComponentLevels} {entries others : List (String × String)}

/-- The octets of names ascend, so no name comes twice. -/
def Ascending (entries : List (String × String)) : Prop :=
  entries.Pairwise fun a b => Bytes.ofString a.1 < Bytes.ofString b.1

instance (entries : List (String × String)) : Decidable (Ascending entries) :=
  inferInstanceAs (Decidable (List.Pairwise _ entries))

/-- A list has just these levels, in ascending order of the components. -/
structure IsListing (entries : List (String × String)) (c : ComponentLevels) : Prop where
  perm : entries.Perm c.levels
  ascending : Ascending entries

/-! ## Sorted levels -/

theorem le_iff {a b : String × String} : le a b = true ↔ ¬ b.1 < a.1 := by
  simp [le]

theorem le_trans (x y z : String × String) (hxy : le x y = true) (hyz : le y z = true) :
    le x z = true := by
  rw [le_iff] at *
  exact String.le_trans hxy hyz

theorem le_total (x y : String × String) : (le x y || le y x) = true := by
  rw [Bool.or_eq_true, le_iff, le_iff]
  exact String.le_total x.1 y.1

theorem sorted_perm (c : ComponentLevels) : c.sorted.Perm c.levels := List.mergeSort_perm ..

theorem nodup_sorted (c : ComponentLevels) : (c.sorted.map Prod.fst).Nodup :=
  (c.sorted_perm.map Prod.fst).nodup_iff.mpr c.nodup

/-- Names that are in order and not equal ascend, and so do their octets. -/
theorem ascending_sorted (c : ComponentLevels) : Ascending c.sorted := by
  have hle : (c.levels.mergeSort le).Pairwise fun a b => le a b = true :=
    List.pairwise_mergeSort le_trans le_total c.levels
  have hne : (c.levels.mergeSort le).Pairwise fun a b => a.1 ≠ b.1 :=
    List.pairwise_map.mp c.nodup_sorted
  refine (hle.and hne).imp ?_
  rintro a b ⟨hle, hne⟩
  apply Bytes.ofString_lt
  exact String.not_le.mp fun hba => hne (String.le_antisymm (le_iff.mp hle) hba)

theorem isListing_sorted (c : ComponentLevels) : IsListing c.sorted c :=
  ⟨c.sorted_perm, c.ascending_sorted⟩

/-- Two listings of the same levels are one. -/
theorem IsListing.unique (h : IsListing entries c) (h' : IsListing others d)
    (hperm : c.levels.Perm d.levels) : entries = others := by
  apply List.Perm.eq_of_pairwise ?_ h.ascending h'.ascending
  · exact (h.perm.trans hperm).trans h'.perm.symm
  · intro a b _ _ hab hba
    exact absurd hba (List.lt_asymm hab)

/-! ## Directives -/

/-- The directives of levels that come in a given order. -/
def directivesInOrder (level : String) (entries : List (String × String)) : String :=
  level ++ String.join (entries.map fun e => ",orion::" ++ e.1 ++ "=" ++ e.2)

theorem directives_eq (level : String) (c : ComponentLevels) :
    directives level (some c) = directivesInOrder level c.sorted := rfl

/-- Two lists of the same levels, in whatever orders, give the same directives. There is a list of
these levels in which the octets of the components ascend, and the directives are the level and, for
each entry of this list, what it says. -/
theorem directives_of_perm (level : String) (c d : ComponentLevels)
    (h : c.levels.Perm d.levels) :
    directives level (some c) = directives level (some d) ∧
    (∃ entries, IsListing entries c) ∧
    ∀ entries, IsListing entries c →
      directives level (some c) = directivesInOrder level entries := by
  have hsame : c.sorted = d.sorted := c.isListing_sorted.unique d.isListing_sorted h
  refine ⟨?_, ⟨c.sorted, c.isListing_sorted⟩, ?_⟩
  · rw [directives_eq, directives_eq, hsame]
  · intro entries hentries
    rw [directives_eq, c.isListing_sorted.unique hentries (List.Perm.refl _)]

/-- Levels of three components, of which the last two come the other way round if one goes by units
of sixteen bits. -/
def spread : List (String × String) := [("z", "debug"), ("￮", "trace"), ("𐀀", "info")]

theorem directives_of_perm_spread :
    let c : ComponentLevels := ⟨[("𐀀", "info"), ("z", "debug"), ("￮", "trace")], by decide⟩
    let d : ComponentLevels := ⟨[("￮", "trace"), ("𐀀", "info"), ("z", "debug")], by decide⟩
    c.levels.Perm d.levels ∧ IsListing spread c ∧
      directives "warn" (some c) = directives "warn" (some d) ∧
      directives "warn" (some c) = "warn,orion::z=debug,orion::￮=trace,orion::𐀀=info" := by
  intro c d
  have hperm : c.levels.Perm d.levels := by decide
  have hlisting : IsListing spread c := ⟨by decide, by decide⟩
  obtain ⟨hsame, -, horder⟩ := directives_of_perm "warn" c d hperm
  have htext : directivesInOrder "warn" spread =
      "warn,orion::z=debug,orion::￮=trace,orion::𐀀=info" := by decide
  exact ⟨hperm, hlisting, hsame, (horder spread hlisting).trans htext⟩

end LiveQuery.ComponentLevels
