import LiveQuery.Proofs.Json.Decoding

/-!
# Layouts without repeated keys

A value can be laid out in many ways: its members come in any order, and a text may even give one
key twice. A decoder that undoes an encoding does so from every layout of the encoded value in which
no object has a key twice (`Doc.Undoes`). `Doc.foldMembers_shown` brings this down to single members
for the decoders that fold the members of an object.
-/

namespace LiveQuery.Json

theorem obj_ne_null (ms : List (String × Json)) : obj ms ≠ .null := by simp [obj]

theorem nat_ne_null (n : Nat) : nat n ≠ .null := by simp [nat]

theorem string_ne_null (s : String) : string s ≠ .null := by simp

/-! ## Members without repeated keys -/

theorem insert_perm {key : String} {ms : Members} (v : Json) (h : key ∉ ms.map Prod.fst) :
    (insert key v ms).Perm ((key, v) :: ms) := by
  induction ms with
  | nil => exact .refl _
  | cons m rest ih =>
    obtain ⟨k, w⟩ := m
    simp only [List.map_cons, List.mem_cons, not_or] at h
    simp only [insert]
    split
    · exact .refl _
    · rw [if_neg (Ne.symm h.1)]
      exact ((ih h.2).cons _).trans (.swap ..)

/-- Members without repeated keys spell an object of just these members. -/
theorem ofMembers_perm {ms : List (String × Json)} (h : (ms.map Prod.fst).Nodup) :
    (ofMembers ms).Perm ms := by
  suffices hacc : ∀ acc : Members, ((acc ++ ms).map Prod.fst).Nodup →
      (ms.foldl (fun acc m => insert m.1 m.2 acc) acc).Perm (acc ++ ms) from hacc [] h
  clear h
  induction ms with
  | nil => simp
  | cons m rest ih =>
    intro acc hacc
    have hm : m.1 ∉ acc.map Prod.fst := by
      rw [List.map_append, List.map_cons, List.nodup_append] at hacc
      exact fun hmem => hacc.2.2 m.1 hmem m.1 (List.mem_cons_self ..) rfl
    have hinsert : (insert m.1 m.2 acc ++ rest).Perm (acc ++ m :: rest) :=
      ((insert_perm m.2 hm).append_right rest).trans List.perm_middle.symm
    exact (ih _ ((hinsert.map Prod.fst).nodup_iff.mpr hacc)).trans hinsert

theorem ofMembers_eq_nil_iff {ms : List (String × Json)} : ofMembers ms = [] ↔ ms = [] := by
  constructor
  · intro h
    cases ms with
    | nil => rfl
    | cons m rest =>
      have hfind : (find? m.1 (ofMembers (m :: rest))).isSome = true := by
        rw [find?_ofMembers, last?, if_pos rfl]
        cases last? m.1 rest <;> rfl
      rw [h] at hfind
      cases hfind
  · rintro rfl
    rfl

theorem sorted_ofMembers (ms : List (String × Json)) : Sorted (ofMembers ms) := by
  suffices hacc : ∀ acc : Members, Sorted acc →
      Sorted (ms.foldl (fun acc m => insert m.1 m.2 acc) acc) from hacc [] sorted_nil
  induction ms with
  | nil => exact fun acc h => h
  | cons m rest ih => exact fun acc h => ih _ (sorted_insert m.1 m.2 h)

theorem mem_of_mem_ofMembers {ms : List (String × Json)} {m : String × Json}
    (h : m ∈ ofMembers ms) : m ∈ ms := by
  suffices hacc : ∀ acc : Members, m ∈ ms.foldl (fun acc m => insert m.1 m.2 acc) acc →
      m ∈ acc ∨ m ∈ ms from (hacc [] h).resolve_left List.not_mem_nil
  clear h
  induction ms with
  | nil => exact fun acc h => .inl h
  | cons m' rest ih =>
    intro acc h
    rcases ih _ h with h | h
    · rcases mem_insert h with rfl | h
      · exact .inr (List.mem_cons_self ..)
      · exact .inl h
    · exact .inr (List.mem_cons_of_mem m' h)

theorem canonical_obj {ms : List (String × Json)} (h : ∀ m ∈ ms, Canonical m.2) :
    Canonical (.obj ms) :=
  .object (sorted_ofMembers ms) fun m hm => h m (mem_of_mem_ofMembers hm)

theorem Sorted.nodup {ms : Members} (h : Sorted ms) : (ms.map Prod.fst).Nodup :=
  List.pairwise_map.mpr (h.imp fun hlt => String.ne_of_lt hlt)

theorem filter_cons_of_not_mem {ms : Members} {name : String} (hname : name ∉ ms.map Prod.fst)
    (names : List String) :
    (ms.filter fun m => m.1 ∈ name :: names) = ms.filter fun m => m.1 ∈ names := by
  refine List.filter_congr fun m hm => ?_
  have hne : m.1 ≠ name := fun he => hname (he ▸ List.mem_map_of_mem hm)
  simp [hne]

/-- The members with certain keys, and one more. -/
theorem insert_filter {ms : Members} (h : Sorted ms) {name : String} {x : Json}
    (hm : (name, x) ∈ ms) {names : List String} (hname : name ∉ names) :
    insert name x (ms.filter fun m => m.1 ∈ names) = ms.filter fun m => m.1 ∈ name :: names := by
  induction ms with
  | nil => cases hm
  | cons m rest ih =>
    obtain ⟨hlt, hrest⟩ := List.pairwise_cons.mp h
    rcases List.mem_cons.mp hm with rfl | hm
    · have hnot : name ∉ rest.map Prod.fst := fun hmem => by
        obtain ⟨m, hm, he⟩ := List.mem_map.mp hmem
        exact String.ne_of_lt (hlt m hm) he.symm
      have hfirst : insert name x (rest.filter fun m => m.1 ∈ names) =
          (name, x) :: rest.filter fun m => m.1 ∈ names := by
        cases hf : rest.filter fun m => m.1 ∈ names with
        | nil => rfl
        | cons m' rest' =>
          have hm' : m' ∈ rest := (List.mem_filter.mp (hf ▸ List.mem_cons_self ..)).1
          exact if_pos (hlt m' hm')
      rw [List.filter_cons_of_neg (by simpa using hname), hfirst,
        List.filter_cons_of_pos (by simp), filter_cons_of_not_mem hnot]
    · have hgt := hlt _ hm
      have hne : m.1 ≠ name := String.ne_of_lt hgt
      by_cases hmem : m.1 ∈ names
      · rw [List.filter_cons_of_pos (by simpa using hmem), List.filter_cons_of_pos (by simp [hmem]),
          insert, if_neg (String.lt_asymm hgt), if_neg hne, ih hrest hm]
      · rw [List.filter_cons_of_neg (by simpa using hmem),
          List.filter_cons_of_neg (by simp [hmem, hne]), ih hrest hm]

end LiveQuery.Json

namespace LiveQuery.Json.Doc

variable {α σ : Type}

mutual
/-- No object in the layout has a key twice. -/
def Distinct : Doc → Prop
  | array _ items _ => DistinctItems items
  | object _ members _ =>
    (members.filterMap fun m => m.1.name.toOption).Nodup ∧ DistinctMembers members
  | _ => True

/-- No object in the items has a key twice. -/
def DistinctItems : List (Position × Doc) → Prop
  | [] => True
  | (_, d) :: rest => Distinct d ∧ DistinctItems rest

/-- No object in the values of the members has a key twice. -/
def DistinctMembers : List (Key × Doc) → Prop
  | [] => True
  | (_, d) :: rest => Distinct d ∧ DistinctMembers rest
end

/-- From every layout of the encoded value, whatever the order of members, the decoder takes what
was encoded. -/
def Undoes (decode : Nat → Doc → Except Error α) (encode : α → Json) (a : α) : Prop :=
  ∀ ⦃depth d⦄, d.Distinct → d.value depth = .ok (encode a) → decode depth d = .ok a

variable {depth : Nat} {d : Doc} {v : Json}

/-! ## Values of one kind -/

theorem eq_number_of_value {n : Number} (hv : d.value depth = .ok (.number n)) :
    ∃ start after, d = .number (.ok n) start after := by
  cases d with
  | number value start after =>
    cases value with
    | error e => cases hv
    | ok m =>
      cases hv
      exact ⟨start, after, rfl⟩
  | string value => cases value <;> cases hv
  | array start items stop => obtain ⟨vs, hvs⟩ := value_array hv; cases hvs
  | object start members stop => obtain ⟨_, _, _, _, hms⟩ := value_object hv; cases hms
  | fault | broken | null | bool => cases hv

theorem eq_string_of_value {s : String} (hv : d.value depth = .ok (.string s)) :
    ∃ start after, d = .string (.ok s) start after := by
  cases d with
  | string value start after =>
    cases value with
    | error e => cases hv
    | ok t =>
      cases hv
      exact ⟨start, after, rfl⟩
  | number value => cases value <;> cases hv
  | array start items stop => obtain ⟨vs, hvs⟩ := value_array hv; cases hvs
  | object start members stop => obtain ⟨_, _, _, _, hms⟩ := value_object hv; cases hms
  | fault | broken | null | bool => cases hv

theorem eq_bool_of_value {b : Bool} (hv : d.value depth = .ok (.bool b)) :
    ∃ start after, d = .bool b start after := by
  cases d with
  | bool c start after =>
    cases hv
    exact ⟨start, after, rfl⟩
  | number value => cases value <;> cases hv
  | string value => cases value <;> cases hv
  | array start items stop => obtain ⟨vs, hvs⟩ := value_array hv; cases hvs
  | object start members stop => obtain ⟨_, _, _, _, hms⟩ := value_object hv; cases hms
  | fault | broken | null => cases hv

theorem eq_array_of_value {items : List Json} (hv : d.value depth = .ok (.array items)) :
    ∃ start ds stop depth' after, d = .array start ds stop ∧ descend depth start = .ok depth' ∧
      itemValues depth' ds = .ok items ∧ stop.endItems = .ok after := by
  cases d with
  | array start ds stop =>
    simp only [value, bind_eq_ok, pure_eq_ok] at hv
    obtain ⟨depth', hdepth, vs, hvs, after, hafter, hitems⟩ := hv
    cases hitems
    exact ⟨start, ds, stop, depth', after, rfl, hdepth, hvs, hafter⟩
  | number value => cases value <;> cases hv
  | string value => cases value <;> cases hv
  | object start members stop => obtain ⟨_, _, _, _, hms⟩ := value_object hv; cases hms
  | fault | broken | null | bool => cases hv

theorem eq_object_of_value {ms : Members} (hv : d.value depth = .ok (.object ms)) :
    ∃ start ds stop depth' shown after, d = .object start ds stop ∧
      descend depth start = .ok depth' ∧ memberValues depth' ds = .ok shown ∧
      stop.endMembers = .ok after ∧ ms = ofMembers shown := by
  cases d with
  | object start ds stop =>
    simp only [value, bind_eq_ok, pure_eq_ok] at hv
    obtain ⟨depth', hdepth, shown, hshown, after, hafter, hms⟩ := hv
    cases hms
    exact ⟨start, ds, stop, depth', shown, after, rfl, hdepth, hshown, hafter, rfl⟩
  | number value => cases value <;> cases hv
  | string value => cases value <;> cases hv
  | array start items stop => obtain ⟨vs, hvs⟩ := value_array hv; cases hvs
  | fault | broken | null | bool => cases hv

theorem undoes_u32 (n : UInt32) : Undoes (fun _ => u32) (fun n => .nat n.toNat) n := by
  intro depth d _ hv
  obtain ⟨start, after, rfl⟩ := eq_number_of_value hv
  have hle : n.toNat ≤ UInt32.size - 1 := Nat.le_pred_of_lt n.toNat_lt
  have hn : natural (UInt32.size - 1) "u32" (.number (.ok (.int n.toNat)) start after) =
      .ok n.toNat := by
    rw [natural, if_pos ⟨by omega, by omega⟩]
    rfl
  simp only [u32, hn, ok_bind]
  exact congrArg Except.ok (UInt32.ofNat_toNat)

theorem undoes_text (s : String) : Undoes (fun _ => text) .string s := by
  intro depth d _ hv
  obtain ⟨start, after, rfl⟩ := eq_string_of_value hv
  rfl

theorem undoes_truth (b : Bool) : Undoes (fun _ => truth) .bool b := by
  intro depth d _ hv
  obtain ⟨start, after, rfl⟩ := eq_bool_of_value hv
  rfl

theorem mapM_text_of_items {ds : List (Position × Doc)} {values : List String}
    (hv : itemValues depth ds = .ok (values.map .string)) :
    ds.mapM (fun item => item.2.text) = .ok values := by
  induction ds generalizing values with
  | nil =>
    cases values with
    | nil => rfl
    | cons s values => cases hv
  | cons item rest ih =>
    obtain ⟨p, d⟩ := item
    simp only [itemValues, bind_eq_ok, pure_eq_ok] at hv
    obtain ⟨v, hv, vs, hvs, he⟩ := hv
    cases values with
    | nil => cases he
    | cons s values =>
      cases he
      obtain ⟨start, after, rfl⟩ := eq_string_of_value hv
      rw [List.mapM_cons, ih hvs]
      rfl

theorem undoes_texts (values : List String) :
    Undoes texts (fun values => .array (values.map .string)) values := by
  intro depth d _ hv
  obtain ⟨start, ds, stop, depth', after, rfl, hdepth, hitems, hafter⟩ := eq_array_of_value hv
  simp only [texts, hdepth, mapM_text_of_items hitems, hafter]
  rfl

/-- What may be missing, and is there. -/
theorem Undoes.optional {decode : Nat → Doc → Except Error α} {encode : α → Json} {a : α}
    (h : Undoes decode encode a) (hne : encode a ≠ .null) (hd : d.Distinct)
    (hv : d.value depth = .ok (encode a)) : d.optional (decode depth) = .ok (some a) := by
  have hdecode := h hd hv
  cases d with
  | null => exact absurd (Except.ok.inj hv).symm hne
  | fault | broken | bool | number | string | array | object =>
    simp only [Doc.optional, hdecode]
    rfl

/-! ## Objects -/

theorem names_of_memberValues {ds : List (Key × Doc)} {shown : List (String × Json)}
    (h : memberValues depth ds = .ok shown) :
    (ds.filterMap fun m => m.1.name.toOption) = shown.map Prod.fst := by
  induction ds generalizing shown with
  | nil =>
    cases h
    rfl
  | cons m rest ih =>
    obtain ⟨k, d⟩ := m
    simp only [memberValues, bind_eq_ok, pure_eq_ok] at h
    obtain ⟨name, hname, x, -, shown', hshown', rfl⟩ := h
    have hopt : k.name.toOption = some name := by rw [hname]; rfl
    simp only [List.filterMap_cons, hopt, ih hshown', List.map_cons]

/-- What a decoder that folds the members of an object holds, by the names of the members that it
has passed. The object has each of the members that are shown, in whatever order. -/
theorem foldMembers_shown (take : Nat → σ → String → Position → Doc → Except Error σ)
    (state : List String → σ) {shown : List (String × Json)} (hshown : (shown.map Prod.fst).Nodup)
    (hstep : ∀ depth names name p d x, (name, x) ∈ shown → name ∉ names → d.Distinct →
      d.value depth = .ok x → take depth (state names) name p d = .ok (state (name :: names)))
    (hd : d.Distinct) (hv : d.value depth = .ok (.obj shown)) :
    ∃ start ds stop depth' names after, d = .object start ds stop ∧
      descend depth start = .ok depth' ∧ (∀ name, name ∈ names ↔ name ∈ shown.map Prod.fst) ∧
      foldMembers (take depth') (state []) ds stop = .ok (state names, after) := by
  obtain ⟨start, ds, stop, depth', ms, after, rfl, hdepth, hms, hafter, he⟩ :=
    eq_object_of_value hv
  obtain ⟨hnodup, hdistinct⟩ := hd
  rw [names_of_memberValues hms] at hnodup
  have hperm : ms.Perm shown :=
    ((ofMembers_perm hnodup).symm.trans (.of_eq he.symm)).trans (ofMembers_perm hshown)
  have hmem : ∀ m ∈ ms, m ∈ shown := fun m hm => hperm.mem_iff.mp hm
  -- Over the members that are left to read; `shown` and what is asked of its members stay.
  suffices hfold : ∀ passed, (∀ name ∈ ms.map Prod.fst, name ∉ passed) →
      foldMembers (take depth') (state passed) ds stop =
        .ok (state ((ms.map Prod.fst).reverse ++ passed), after) by
    refine ⟨start, ds, stop, depth', _, after, rfl, hdepth, fun name => ?_, hfold [] (by simp)⟩
    rw [List.append_nil, List.mem_reverse, (hperm.map Prod.fst).mem_iff]
  clear hperm he hv
  induction ds generalizing ms with
  | nil =>
    intro passed _
    cases hms
    simp only [foldMembers, hafter]
    rfl
  | cons m rest ih =>
    intro passed hpassed
    obtain ⟨k, d⟩ := m
    obtain ⟨hdhere, hdrest⟩ := hdistinct
    simp only [memberValues, bind_eq_ok, pure_eq_ok] at hms
    obtain ⟨name, hname, x, hx, ms', hms', rfl⟩ := hms
    simp only [List.map_cons, List.nodup_cons, List.mem_cons, forall_eq_or_imp]
      at hnodup hpassed hmem
    have htake := hstep depth' passed name k.settled d x hmem.1 hpassed.1 hdhere hx
    have hrest := ih ms' hms' hnodup.2 hdrest hmem.2 (name :: passed) fun n hn => by
      have hne : n ≠ name := fun he => hnodup.1 (he ▸ hn)
      simpa [hne] using hpassed.2 n hn
    simp only [foldMembers, hname, ok_bind, htake]
    simpa using hrest

/-- A record of one field is read from the object that has it. -/
theorem undoes_single {decode : Nat → Doc → Except Error α} {encode : α → Json} {a : α}
    (h : Undoes decode encode a) (record field : String) :
    Undoes (fun depth d => d.single depth record field decode)
      (fun a => .obj [(field, encode a)]) a := by
  intro depth d hd hv
  obtain ⟨start, ds, stop, depth', names, after, rfl, hdepth, hnames, hfold⟩ :=
    foldMembers_shown (single.take field decode)
      (fun names => if field ∈ names then some a else none) (by simp)
      (fun depth names name p d x hx hname hd hv => by
        simp only [List.mem_singleton, Prod.mk.injEq] at hx
        obtain ⟨rfl, rfl⟩ := hx
        simp only [single.take, if_pos, if_neg hname, h hd hv, List.mem_cons_self]
        rfl)
      hd hv
  have hfield : field ∈ names := (hnames field).mpr (by simp)
  simp only [List.not_mem_nil, if_false, if_pos hfield] at hfold
  simp only [single, hdepth, ok_bind, hfold]
  rfl

/-! ## Values have layouts -/

theorem exists_items {items : List Json}
    (h : ∀ v ∈ items, ∃ d bound, d.Distinct ∧ ∀ depth, bound ≤ depth → value depth d = .ok v) :
    ∃ ds bound, DistinctItems ds ∧ ∀ depth, bound ≤ depth → itemValues depth ds = .ok items := by
  induction items with
  | nil => exact ⟨[], 0, trivial, fun _ _ => rfl⟩
  | cons v rest ih =>
    obtain ⟨d, n, hdistinct, hd⟩ := h v (List.mem_cons_self ..)
    obtain ⟨ds, m, hrest, hds⟩ := ih fun v' hv' => h v' (List.mem_cons_of_mem v hv')
    refine ⟨(.start, d) :: ds, max n m, ⟨hdistinct, hrest⟩, fun depth hdepth => ?_⟩
    rw [itemValues, hd depth (by omega), hds depth (by omega)]
    rfl

theorem exists_members {ms : Members}
    (h : ∀ m ∈ ms, ∃ d bound, d.Distinct ∧ ∀ depth, bound ≤ depth → value depth d = .ok m.2) :
    ∃ ds bound, DistinctMembers ds ∧ ∀ depth, bound ≤ depth → memberValues depth ds = .ok ms := by
  induction ms with
  | nil => exact ⟨[], 0, trivial, fun _ _ => rfl⟩
  | cons m rest ih =>
    obtain ⟨d, n, hdistinct, hd⟩ := h m (List.mem_cons_self ..)
    obtain ⟨ds, k, hrest, hds⟩ := ih fun m' hm' => h m' (List.mem_cons_of_mem m hm')
    refine ⟨(⟨.ok m.1, .start, .start, .start⟩, d) :: ds, max n k, ⟨hdistinct, hrest⟩,
      fun depth hdepth => ?_⟩
    rw [memberValues, hd depth (by omega), hds depth (by omega)]
    rfl

/-- Every value of sorted objects is laid out by something, so that what is shown of layouts and
their values is shown of all values. -/
theorem exists_doc (h : Canonical v) :
    ∃ d bound, d.Distinct ∧ ∀ depth, bound ≤ depth → value depth d = .ok v := by
  induction h with
  | null => exact ⟨.null .start .start, 0, trivial, fun _ _ => rfl⟩
  | bool b => exact ⟨.bool b .start .start, 0, trivial, fun _ _ => rfl⟩
  | number n => exact ⟨.number (.ok n) .start .start, 0, trivial, fun _ _ => rfl⟩
  | string s => exact ⟨.string (.ok s) .start .start, 0, trivial, fun _ _ => rfl⟩
  | array _ ih =>
    obtain ⟨ds, n, hdistinct, hds⟩ := exists_items ih
    -- A bracket costs one level of depth, and is not read at the last level.
    refine ⟨.array .start ds (.closed .start), n + 2, hdistinct, fun depth hdepth => ?_⟩
    have hdescend : descend depth .start = .ok (depth - 1) := if_neg (by omega)
    rw [value, hdescend, ok_bind, hds (depth - 1) (by omega)]
    rfl
  | object hs _ ih =>
    rename_i ms _
    obtain ⟨ds, n, hdistinct, hds⟩ := exists_members ih
    have hnodup : (ds.filterMap fun m => m.1.name.toOption).Nodup := by
      rw [names_of_memberValues (hds n (Nat.le_refl n))]
      exact hs.nodup
    refine ⟨.object .start ds (.closed .start), n + 2, ⟨hnodup, hdistinct⟩, fun depth hdepth => ?_⟩
    have hdescend : descend depth .start = .ok (depth - 1) := if_neg (by omega)
    rw [value, hdescend, ok_bind, hds (depth - 1) (by omega)]
    change Except.ok (Json.object (ofMembers ms)) = .ok (.object ms)
    rw [ofMembers_of_sorted hs]

end LiveQuery.Json.Doc
