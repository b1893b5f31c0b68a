import LiveQuery.Json.Basic

/-!
# The members of an object

An object is read and written member by member, and of two members with one key the later one
counts. `find?_ofMembers` says so of what stands at a key in the end; where no key comes twice, as
in sorted members, the first and the last one are the same (`last?_of_sorted`).
-/

namespace LiveQuery.Json

/-- The members are in the order of their keys, and no key is there twice. -/
def Sorted (ms : Members) : Prop := ms.Pairwise fun a b => a.1 < b.1

/-- A value whose objects are all sorted. -/
inductive Canonical : Json → Prop
  | null : Canonical .null
  | bool (b : Bool) : Canonical (.bool b)
  | number (n : Number) : Canonical (.number n)
  | string (s : String) : Canonical (.string s)
  | array {items : List Json} (h : ∀ v ∈ items, Canonical v) : Canonical (.array items)
  | object {ms : Members} (hs : Sorted ms) (h : ∀ m ∈ ms, Canonical m.2) : Canonical (.object ms)

theorem Canonical.single {name : String} {x : Json} (hx : Canonical x) :
    Canonical (.object [(name, x)]) :=
  .object (List.pairwise_singleton _ _) fun _ hm => List.mem_singleton.mp hm ▸ hx

/-- The value of the last member with a key. -/
def last? (key : String) : Members → Option Json
  | [] => none
  | (k, v) :: rest => (last? key rest).or (if k = key then some v else none)

@[simp] theorem find?_nil (k : String) : find? k [] = none := rfl

@[simp] theorem last?_nil (k : String) : last? k [] = none := rfl

theorem find?_insert (key k : String) (v : Json) (ms : Members) :
    find? k (insert key v ms) = if key = k then some v else find? k ms := by
  induction ms with
  | nil => rfl
  | cons m rest ih =>
    obtain ⟨k', v'⟩ := m
    simp only [insert]
    split
    · rfl
    · split
      · rename_i hk
        subst hk
        by_cases hkey : k' = k
        · simp [find?, hkey]
        · simp [find?, hkey]
      · rename_i hk
        by_cases hkey : key = k
        · subst hkey
          simp [find?, hk, ih]
        · simp [find?, hkey, ih]

theorem mem_insert {key : String} {v : Json} {ms : Members} {m : String × Json}
    (h : m ∈ insert key v ms) : m = (key, v) ∨ m ∈ ms := by
  induction ms with
  | nil => simpa [insert] using h
  | cons m' rest ih =>
    simp only [insert] at h
    split at h
    · exact List.mem_cons.mp h
    · split at h
      · exact (List.mem_cons.mp h).imp_right (List.mem_cons_of_mem m')
      · rcases List.mem_cons.mp h with rfl | h
        · exact .inr (List.mem_cons_self ..)
        · exact (ih h).imp_right (List.mem_cons_of_mem m')

theorem sorted_nil : Sorted [] := .nil

theorem sorted_insert (key : String) (v : Json) {ms : Members} (h : Sorted ms) :
    Sorted (insert key v ms) := by
  induction ms with
  | nil => exact List.pairwise_singleton _ _
  | cons m rest ih =>
    obtain ⟨hm, hrest⟩ := List.pairwise_cons.mp h
    simp only [insert]
    split
    · rename_i hlt
      refine .cons (fun m' hm' => ?_) h
      rcases List.mem_cons.mp hm' with rfl | hm'
      · exact hlt
      · exact String.lt_trans hlt (hm m' hm')
    · rename_i hlt
      split
      · rename_i hk
        exact .cons (fun m' hm' => hk ▸ hm m' hm') hrest
      · rename_i hk
        refine .cons (fun m' hm' => ?_) (ih hrest)
        rcases mem_insert hm' with rfl | hm'
        · exact Std.lt_of_le_of_ne (Std.not_lt.mp hlt) hk
        · exact hm m' hm'

theorem find?_of_lt {key : String} {ms : Members} (h : ∀ m ∈ ms, key < m.1) :
    find? key ms = none := by
  induction ms with
  | nil => rfl
  | cons m rest ih =>
    have hm := h m (List.mem_cons_self ..)
    have hne : m.1 ≠ key := fun he => String.lt_irrefl key (he ▸ hm)
    rw [find?, if_neg hne]
    exact ih fun m' hm' => h m' (List.mem_cons_of_mem m hm')

/-- What stands at the first key of some members does not stand in front of others. -/
theorem not_lt_of_find?_eq {k k' : String} {v v' : Json} {rest rest' : Members}
    (hns : Sorted ((k', v') :: rest'))
    (h : find? k ((k, v) :: rest) = find? k ((k', v') :: rest')) : ¬ k < k' := by
  intro hlt
  have hbelow : ∀ n ∈ (k', v') :: rest', k < n.1 :=
    List.forall_mem_cons.mpr
      ⟨hlt, fun n hn => String.lt_trans hlt ((List.pairwise_cons.mp hns).1 n hn)⟩
  rw [find?_of_lt hbelow, find?, if_pos rfl] at h
  cases h

/-- Sorted members with the same value at every key are the same. -/
theorem eq_of_find? {ms ns : Members} (hms : Sorted ms) (hns : Sorted ns)
    (h : ∀ k, find? k ms = find? k ns) : ms = ns := by
  induction ms generalizing ns with
  | nil =>
    cases ns with
    | nil => rfl
    | cons n rest' =>
      have hn := h n.1
      rw [find?_nil, find?, if_pos rfl] at hn
      cases hn
  | cons m rest ih =>
    obtain ⟨k, v⟩ := m
    cases ns with
    | nil =>
      have hm := h k
      rw [find?_nil, find?, if_pos rfl] at hm
      cases hm
    | cons n rest' =>
      obtain ⟨k', v'⟩ := n
      have hle : k' ≤ k := Std.not_lt.mp (not_lt_of_find?_eq hns (h k))
      have hge : k ≤ k' := Std.not_lt.mp (not_lt_of_find?_eq hms (h k').symm)
      obtain rfl : k = k' := Std.le_antisymm hge hle
      have hvalue := h k
      rw [find?, find?, if_pos rfl, if_pos rfl] at hvalue
      obtain ⟨hk, hrest⟩ := List.pairwise_cons.mp hms
      obtain ⟨hk', hrest'⟩ := List.pairwise_cons.mp hns
      have htail : ∀ j, find? j rest = find? j rest' := by
        intro j
        by_cases hj : k = j
        · subst hj
          rw [find?_of_lt hk, find?_of_lt hk']
        · have hj' := h j
          rw [find?, find?, if_neg hj, if_neg hj] at hj'
          exact hj'
      rw [Option.some.inj hvalue, ih hrest hrest' htail]

/-- In sorted members no key comes twice. -/
theorem last?_of_sorted {ms : Members} (h : Sorted ms) (k : String) :
    last? k ms = find? k ms := by
  induction ms with
  | nil => rfl
  | cons m rest ih =>
    obtain ⟨k', v⟩ := m
    obtain ⟨hm, hrest⟩ := List.pairwise_cons.mp h
    rw [last?, find?, ih hrest]
    by_cases hk : k' = k
    · subst hk
      rw [find?_of_lt hm, if_pos rfl, Option.none_or]
    · rw [if_neg hk, Option.or_none, if_neg hk]

theorem insert_of_lt {key : String} (v : Json) {ms : Members} (h : ∀ m ∈ ms, m.1 < key) :
    insert key v ms = ms ++ [(key, v)] := by
  induction ms with
  | nil => rfl
  | cons m rest ih =>
    have hm : m.1 < key := h m (List.mem_cons_self ..)
    have hne : m.1 ≠ key := fun he => String.lt_irrefl key (he ▸ hm)
    rw [insert, if_neg (String.lt_asymm hm), if_neg hne, List.cons_append,
      ih fun m' hm' => h m' (List.mem_cons_of_mem m hm')]

/-- Sorted members spell themselves. -/
theorem ofMembers_of_sorted {ms : Members} (h : Sorted ms) : ofMembers ms = ms := by
  have happend : ∀ acc : Members, Sorted (acc ++ ms) →
      ms.foldl (fun acc m => insert m.1 m.2 acc) acc = acc ++ ms := by
    clear h
    induction ms with
    | nil => simp
    | cons m rest ih =>
      intro acc hacc
      have hlt : ∀ m' ∈ acc, m'.1 < m.1 := fun m' hm' =>
        (List.pairwise_append.mp hacc).2.2 m' hm' m (List.mem_cons_self ..)
      rw [List.foldl_cons, insert_of_lt m.2 hlt, ih, List.append_assoc, List.singleton_append]
      simpa using hacc
  exact happend [] h

theorem last?_append (k : String) (ms ns : Members) :
    last? k (ms ++ ns) = (last? k ns).or (last? k ms) := by
  induction ms with
  | nil => simp
  | cons m rest ih => rw [List.cons_append, last?, last?, ih, Option.or_assoc]

theorem find?_foldl_insert (k : String) (ms acc : Members) :
    find? k (ms.foldl (fun acc m => insert m.1 m.2 acc) acc) = (last? k ms).or (find? k acc) := by
  induction ms generalizing acc with
  | nil => rfl
  | cons m rest ih =>
    rw [List.foldl_cons, ih, find?_insert, last?, Option.or_assoc]
    congr 1
    split <;> rfl

/-- Of the members of an object with one key the last one counts. -/
theorem find?_ofMembers (k : String) (ms : Members) : find? k (ofMembers ms) = last? k ms := by
  rw [ofMembers, find?_foldl_insert, find?_nil, Option.or_none]

/-- Members that are there or not: at any other key there is none. -/
theorem last?_filterMap_of_ne {φ : Type} {text : φ → String} (g : φ → Option Json)
    {fields : List φ} {k : String} (hk : ∀ f ∈ fields, text f ≠ k) :
    last? k (fields.filterMap fun f => (g f).map (text f, ·)) = none := by
  induction fields with
  | nil => rfl
  | cons f rest ih =>
    have hrest := ih fun f' hf' => hk f' (List.mem_cons_of_mem f hf')
    cases hg : g f with
    | none => simpa [hg] using hrest
    | some v => simpa [hg, last?, hrest] using hk f (List.mem_cons_self ..)

/-- Members that are there or not, each at a key of its own: the one at a key. -/
theorem last?_filterMap {φ : Type} {text : φ → String} (g : φ → Option Json) {fields : List φ}
    (hnodup : (fields.map text).Nodup) {f : φ} (hf : f ∈ fields) :
    last? (text f) (fields.filterMap fun f => (g f).map (text f, ·)) = g f := by
  induction fields with
  | nil => cases hf
  | cons f' rest ih =>
    rw [List.map_cons, List.nodup_cons] at hnodup
    rcases List.mem_cons.mp hf with rfl | hf
    · have hrest : last? (text f) (rest.filterMap fun f => (g f).map (text f, ·)) = none :=
        last?_filterMap_of_ne g fun f' hf' he => hnodup.1 (he ▸ List.mem_map_of_mem hf')
      cases hg : g f with
      | none => simpa [hg] using hrest
      | some v => simp [hg, last?, hrest]
    · have hne : text f' ≠ text f := fun he => hnodup.1 (he ▸ List.mem_map_of_mem hf)
      have hrest := ih hnodup.2 hf
      cases hg : g f' with
      | none => simpa [hg] using hrest
      | some v => simp [hg, last?, hrest, hne]

end LiveQuery.Json
