import LiveQuery.Proofs.Registry.Alone
import LiveQuery.Proofs.Registry.Register
import Mathlib.Data.List.Perm.Subperm

/-!
# Identifiers

An identifier is taken from the counter before the query is made, and entered in the register after
it. In between it belongs to the call that has taken it. `World.Numbered` says of a world that the
counter is ahead of all identifiers taken, that none of them is taken twice, and that each is
entered for a query which has it; `World.indexed_run_start` says what this means for the register
alone.
-/

namespace LiveQuery

/-- The identifier that a part is to enter in the register, or to make a query under so that it is
entered. -/
def Part.number? : Part → Option Nat
  | .build id _ _ _ true => some id
  | .enter id _ => some id
  | _ => none

/-- The identifiers that parts are to enter. -/
def Part.numbers (ps : List Part) : List Nat := ps.flatMap fun p => p.number?.toList

/-- The registered identifiers, in the order of the entries. -/
def Registry.keys (r : Registry) : List Nat := r.entries.map Prod.fst

/-- No identifier is registered twice, and each stands for a query that has it. -/
structure Registry.Indexed (r : Registry) : Prop where
  nodup : r.keys.Nodup
  idOf : ∀ id h, (id, h) ∈ r.entries → r.idOf? h = some id

/-- The identifiers that a part takes from the counter. -/
def Part.issues (p : Part) (r : Registry) : List Nat :=
  match p with
  | .issue _ _ _ => [r.issued]
  | _ => []

theorem Part.issued_perform (p : Part) (r : Registry) :
    (p.perform r).issued = r.issued + (p.issues r).length := by
  cases p <;> rfl

/-- What a part registers or leaves to be entered was registered before, or was for the part to
enter, or is what the part takes from the counter. -/
theorem Part.keys_perform (p : Part) (r : Registry) :
    ((p.perform r).keys ++ numbers (p.further r)).Sublist
      (r.keys ++ p.number?.toList ++ p.issues r) := by
  cases p with
  | issue e f o => simp [perform, further, issues, numbers, number?, Registry.keys]
  | build id e f o enters =>
    simp only [perform, further, issues]
    cases o.isPolling <;> cases enters <;> simp [numbers, number?, Registry.keys]
  | enter id h => simp [perform, further, issues, numbers, number?, Registry.keys]
  | start h =>
    simp only [perform, further, issues]
    cases r.queries[h]?.bind fun q => q.start.2 <;>
      simp [numbers, number?, Registry.amend, Registry.keys]
  | copy starts =>
    have hnone : numbers (r.handles.map (if starts then Part.start else .stop)) = [] := by
      refine List.flatMap_eq_nil_iff.mpr fun p hp => ?_
      obtain ⟨h, -, rfl⟩ := List.mem_map.mp hp
      cases starts <;> rfl
    simp [perform, further, issues, hnone, number?]
  | take id =>
    have hkeys : (r.remove id).keys.Sublist r.keys := List.filter_sublist.map Prod.fst
    simp only [perform, further, issues]
    cases r.get? id <;> simpa [numbers, number?] using hkeys
  | spawn | stop => simp [perform, further, issues, numbers, number?, Registry.amend, Registry.keys]

/-- A call is to enter no identifier at first. -/
theorem Call.numbers_parts (c : Call) (r : Registry) : Part.numbers (c.parts r) = [] := by
  refine List.flatMap_eq_nil_iff.mpr fun p hp => ?_
  cases beginsWith_of_mem_parts hp <;> rfl

namespace World

/-- The identifiers that calls under way have taken and are to enter. -/
def pending (w : World) : List Nat := w.calls.flatMap fun c => Part.numbers c.todo

/-- The identifiers in the register, and those that are to be entered. -/
def taken (w : World) : List Nat := w.registry.keys ++ w.pending

/-- The counter is ahead of every identifier that has been taken, none is taken twice, and each is
entered, or is to be entered, for a query that has it. -/
structure Numbered (w : World) : Prop where
  lt : ∀ id ∈ w.taken, id < w.registry.issued
  nodup : w.taken.Nodup
  entries : ∀ id h, (id, h) ∈ w.registry.entries → w.registry.idOf? h = some id
  enters : ∀ c ∈ w.calls, ∀ id h, .enter id h ∈ c.todo → w.registry.idOf? h = some id

theorem numbered_start (client : Client) : (start client).Numbered := by
  constructor <;> simp [start, taken, pending, Registry.empty, Registry.keys]

/-- A query keeps its identifier. -/
theorem idOf?_step {w : World} {h : Handle} {id : Nat} (hid : w.registry.idOf? h = some id)
    (s : Step) : (w.step s).registry.idOf? h = some id := by
  obtain ⟨q, hq, rfl⟩ := Option.map_eq_some_iff.mp hid
  have hstep : (w.step s).registry.queries[h]? = some (q.run (w.moves h s)) := query?_step hq
  rw [Registry.idOf?, hstep, Option.map_some, Query.id_run]

/-! ## A call does its next part -/

/-- Changing the element at a place of a list is changing it between what stands before and after
it. -/
theorem exists_append_modify {α : Type} {as : List α} {k : Nat} {a : α} (ha : as[k]? = some a) :
    ∃ before after, as = before ++ a :: after ∧
      ∀ f, as.modify k f = before ++ f a :: after := by
  induction as generalizing k with
  | nil => cases ha
  | cons b as ih =>
    cases k with
    | zero =>
      cases ha
      exact ⟨[], as, rfl, fun f => rfl⟩
    | succ k =>
      obtain ⟨before, after, has, hmodify⟩ := ih (by simpa using ha)
      refine ⟨b :: before, after, by rw [has, List.cons_append], fun f => ?_⟩
      rw [List.modify_succ_cons, hmodify, List.cons_append]

section Part

variable {w : World} {k : Nat} {c : Call} {p : Part} {ps : List Part}

/-- A call that does a part exchanges what the part is to enter for what it leaves to enter. -/
theorem pending_step_part (hc : w.calls[k]? = some ⟨c, p :: ps⟩) :
    ∃ rest, w.pending.Perm (p.number?.toList ++ rest) ∧
      (w.step (.part k)).pending.Perm (Part.numbers (p.further w.registry) ++ rest) := by
  obtain ⟨before, after, hcalls, hmodify⟩ := exists_append_modify hc
  let numbersOf (cs : List Ongoing) : List Nat := cs.flatMap fun c => Part.numbers c.todo
  have hnumbers (qs : List Part) : (numbersOf (before ++ ⟨c, qs ++ ps⟩ :: after)).Perm
      (Part.numbers qs ++ (numbersOf before ++ (Part.numbers ps ++ numbersOf after))) := by
    have happend : numbersOf (before ++ ⟨c, qs ++ ps⟩ :: after) =
        numbersOf before ++ (Part.numbers qs ++ (Part.numbers ps ++ numbersOf after)) := by
      simp [numbersOf, Part.numbers]
    rw [happend]
    exact List.perm_append_comm_assoc _ _ _
  refine ⟨numbersOf before ++ (Part.numbers ps ++ numbersOf after), ?_, ?_⟩
  · have hp : Part.numbers [p] = p.number?.toList := by
      simp [Part.numbers]
    rw [pending, hcalls, ← hp]
    exact hnumbers [p]
  · rw [pending, calls_step_part (next?_eq_some_iff.mpr ⟨c, ps, hc⟩), hmodify]
    exact hnumbers (p.further w.registry)

/-- What is taken after a part was taken before, or the part has taken it from the counter. -/
theorem taken_step_part (hc : w.calls[k]? = some ⟨c, p :: ps⟩) :
    (w.step (.part k)).taken.Subperm (w.taken ++ p.issues w.registry) := by
  obtain ⟨rest, hbefore, hafter⟩ := pending_step_part hc
  have hkeys := (p.keys_perform w.registry).append_right rest
  have hnew : (w.step (.part k)).taken.Perm
      ((p.perform w.registry).keys ++ Part.numbers (p.further w.registry) ++ rest) := by
    rw [taken, registry_step_part (next?_eq_some_iff.mpr ⟨c, ps, hc⟩), List.append_assoc]
    exact hafter.append_left _
  have hold : (w.registry.keys ++ p.number?.toList ++ p.issues w.registry ++ rest).Perm
      (w.taken ++ p.issues w.registry) := by
    rw [List.append_assoc _ _ rest, taken]
    refine (List.perm_append_comm.append_left _).trans ?_
    rw [← List.append_assoc, List.append_assoc w.registry.keys]
    exact (hbefore.symm.append_left _).append_right _
  exact hnew.subperm.trans (hkeys.subperm.trans hold.subperm)

/-- What a part leaves to be entered is the query that it has made, under the identifier it has made
it with. -/
theorem idOf?_of_further (hc : w.calls[k]? = some ⟨c, p :: ps⟩) {id : Nat} {h : Handle}
    (hm : .enter id h ∈ p.further w.registry) : (w.step (.part k)).registry.idOf? h = some id := by
  rw [registry_step_part (next?_eq_some_iff.mpr ⟨c, ps, hc⟩)]
  cases Part.follows_of_mem_further hm with
  | enter => simp [Part.perform, Registry.idOf?, Query.fresh]

/-- A call does its next part. -/
theorem Numbered.part (hw : w.Numbered) (hc : w.calls[k]? = some ⟨c, p :: ps⟩) :
    (w.step (.part k)).Numbered := by
  have hreg := registry_step_part (next?_eq_some_iff.mpr ⟨c, ps, hc⟩)
  have hmem := List.mem_of_getElem? hc
  have htaken := taken_step_part hc
  have hissues : ∀ id ∈ p.issues w.registry,
      id = w.registry.issued ∧ (p.issues w.registry).length = 1 := by
    cases p <;> simp [Part.issues]
  constructor
  case lt =>
    -- A part that issues an identifier also counts it.
    intro id hid
    rw [hreg, Part.issued_perform]
    rcases List.mem_append.mp (htaken.subset hid) with hid | hid
    · have := hw.lt id hid
      omega
    · have := hissues id hid
      omega
  case nodup =>
    obtain ⟨ids, hperm, hsub⟩ := htaken
    refine hperm.nodup_iff.mp (hsub.nodup ?_)
    refine List.nodup_append.mpr ⟨hw.nodup, ?_, ?_⟩
    · cases p <;> simp [Part.issues]
    · rintro id hid _ hissued rfl
      have := hw.lt id hid
      have := hissues id hissued
      omega
  case entries =>
    intro id h he
    rw [hreg] at he
    rcases mem_entries_perform he with he | rfl
    · exact idOf?_step (hw.entries id h he) _
    · exact idOf?_step (hw.enters _ hmem id h (List.mem_cons_self ..)) _
  case enters =>
    intro d hd id h hm
    rcases mem_calls_step_part hc hd with rfl | hd
    · rcases List.mem_append.mp hm with hm | hm
      · exact idOf?_of_further hc hm
      · exact idOf?_step (hw.enters _ hmem id h (List.mem_cons_of_mem p hm)) _
    · exact idOf?_step (hw.enters d hd id h hm) _

end Part

/-! ## Whatever happens -/

theorem Numbered.step {w : World} (hw : w.Numbered) (s : Step) : (w.step s).Numbered := by
  cases s with
  | move h m =>
    exact ⟨hw.lt, hw.nodup, fun id g he => idOf?_step (hw.entries id g he) (.move h m),
      fun c hc id g hm => idOf?_step (hw.enters c hc id g hm) (.move h m)⟩
  | call c =>
    have hpending : (w.step (.call c)).pending = w.pending := by
      simp [pending, World.step, Call.numbers_parts]
    have htaken : (w.step (.call c)).taken = w.taken := by rw [taken, hpending]; rfl
    refine ⟨htaken ▸ hw.lt, htaken ▸ hw.nodup, hw.entries, fun d hd id h hm => ?_⟩
    rcases mem_calls_step_call hd with hd | rfl
    · exact hw.enters d hd id h hm
    · exact absurd hm (Ongoing.enter_not_mem_parts c id h _)
  | part k =>
    cases hk : w.next? k with
    | none => simpa only [World.step, hk] using hw
    | some p =>
      obtain ⟨c, ps, hc⟩ := next?_eq_some_iff.mp hk
      exact hw.part hc
  | rearrange entries =>
    simp only [World.step]
    split
    case isFalse => exact hw
    case isTrue hperm =>
      have hentries := List.isPerm_iff.mp hperm
      have htaken : (entries.map Prod.fst ++ w.pending).Perm w.taken :=
        (hentries.map Prod.fst).append_right _
      exact ⟨fun id hid => hw.lt id (htaken.mem_iff.mp hid), htaken.nodup_iff.mpr hw.nodup,
        fun id h he => hw.entries id h (hentries.mem_iff.mp he), hw.enters⟩

theorem Numbered.run {w : World} (hw : w.Numbered) (ss : List Step) : (w.run ss).Numbered := by
  induction ss generalizing w with
  | nil => exact hw
  | cons s ss ih => exact ih (hw.step s)

/-- Whatever is under way, no identifier is registered twice, and each stands for a query that has
it. -/
theorem indexed_run_start (client : Client) (ss : List Step) :
    ((start client).run ss).registry.Indexed := by
  have hw := (numbered_start client).run ss
  exact ⟨hw.nodup.sublist (List.sublist_append_left _ _), hw.entries⟩

end World
end LiveQuery
