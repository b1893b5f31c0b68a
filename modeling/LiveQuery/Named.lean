/-!
# Values kept by name

A list of values, each under a name of its own, in the order in which the names were first used.
-/

namespace LiveQuery

/-- Keeps a value under a name, in place of what was kept there. -/
def keep (name : String) (value : α) : List (String × α) → List (String × α)
  | [] => [(name, value)]
  | (n, v) :: rest => if n = name then (n, value) :: rest else (n, v) :: keep name value rest

theorem mem_names_keep {name n : String} {value : α} {kept : List (String × α)} :
    n ∈ (keep name value kept).map Prod.fst ↔ n = name ∨ n ∈ kept.map Prod.fst := by
  induction kept with
  | nil => simp [keep]
  | cons entry rest ih =>
    obtain ⟨m, v⟩ := entry
    by_cases h : m = name
    · subst h; simp [keep]
    · simp only [keep, h, if_false, List.map_cons, List.mem_cons, ih]
      constructor <;> rintro (h | h | h) <;> simp_all

/-- No name is used twice. -/
theorem nodup_names_keep {name : String} {value : α} {kept : List (String × α)}
    (h : (kept.map Prod.fst).Nodup) : ((keep name value kept).map Prod.fst).Nodup := by
  induction kept with
  | nil => simp [keep]
  | cons entry rest ih =>
    obtain ⟨m, v⟩ := entry
    simp only [List.map_cons, List.nodup_cons] at h
    by_cases hm : m = name
    · subst hm; simpa [keep] using h
    · rw [keep, if_neg hm, List.map_cons, List.nodup_cons, mem_names_keep]
      exact ⟨fun hn => hn.elim hm h.1, ih h.2⟩

/-- Keeps each of a list of values under its name, the later ones in place of the earlier ones. -/
def keepAll (entries : List (String × α)) : List (String × α) :=
  entries.foldl (fun kept e => keep e.1 e.2 kept) []

/-- No name is used twice. -/
theorem nodup_names_keepAll (entries : List (String × α)) :
    ((keepAll entries).map Prod.fst).Nodup := by
  suffices h : ∀ kept : List (String × α), (kept.map Prod.fst).Nodup →
      ((entries.foldl (fun kept e => keep e.1 e.2 kept) kept).map Prod.fst).Nodup by
    exact h [] (by simp)
  induction entries with
  | nil => intro kept h; simpa using h
  | cons e rest ih => intro kept h; exact ih _ (nodup_names_keep h)

theorem keep_of_notMem {name : String} {value : α} {kept : List (String × α)}
    (h : name ∉ kept.map Prod.fst) : keep name value kept = kept ++ [(name, value)] := by
  induction kept with
  | nil => rfl
  | cons entry rest ih =>
    rw [List.map_cons, List.mem_cons, not_or] at h
    rw [keep, if_neg (Ne.symm h.1), ih h.2, List.cons_append]

/-- Values that have names of their own are all kept, in their order. -/
theorem keepAll_of_nodup {entries : List (String × α)} (h : (entries.map Prod.fst).Nodup) :
    keepAll entries = entries := by
  suffices hall : ∀ kept : List (String × α), ((kept ++ entries).map Prod.fst).Nodup →
      entries.foldl (fun kept e => keep e.1 e.2 kept) kept = kept ++ entries by
    exact hall [] h
  clear h
  induction entries with
  | nil => intro kept _; simp
  | cons e rest ih =>
    intro kept h
    have hnew : e.1 ∉ kept.map Prod.fst := by
      rw [List.map_append, List.map_cons, List.nodup_append] at h
      exact fun hmem => h.2.2 _ hmem _ (List.mem_cons_self ..) rfl
    rw [List.foldl_cons, keep_of_notMem hnew, ih _ (by simpa using h)]
    simp

end LiveQuery
