import LiveQuery.Proofs.Registry.Alone
import LiveQuery.Proofs.Registry.Register
import Mathlib.Data.List.Nodup

/-!
# Queries that have been disposed of

A query that has been taken off the register never comes back to it. But a call that starts all
queries works on a copy of the handles, and such a call may still be under way with the handle of
the query. Nothing else can start the query: it stays stopped exactly if no such call was under way
when it was disposed of.
-/

namespace LiveQuery
namespace World

/-- A query polls in a world. -/
def IsPolling (h : Handle) (w : World) : Prop := ∃ q, w.query? h = some q ∧ q.isPolling = true

/-- A call that starts all queries has copied the handle of this one and not started it yet. -/
def Resumes (h : Handle) (w : World) : Prop :=
  ∃ c ∈ w.calls, c.call = .resumeAll ∧ .start h ∈ c.todo

/-- A query is there, but it is off the register, and no call will put it there. -/
structure IsGone (h : Handle) (w : World) : Prop where
  made : h < w.registry.queries.length
  unregistered : h ∉ w.registry.handles
  unmade : ∀ c ∈ w.calls, ¬ c.Makes h

/-! ## Staying gone -/

theorem IsGone.resumes_of_start {h : Handle} {w : World} (hg : w.IsGone h) {c : Ongoing}
    (hc : c ∈ w.calls) (hm : .start h ∈ c.todo) : w.Resumes h := by
  refine ⟨c, hc, ?_, hm⟩
  by_contra hne
  exact hg.unmade c hc (.inr ⟨hm, hne⟩)

theorem length_queries_step (s : Step) (w : World) :
    w.registry.queries.length ≤ (w.step s).registry.queries.length := by
  cases hs : w.move? s with
  | none => rcases queries_step hs with h | ⟨id, e, f, o, h⟩ <;> simp [h]
  | some hm => simp [registry_step_of_move? (h := hm.1) (m := hm.2) hs, Registry.amend]

/-- What a call does next for a query that is gone it was to do before. -/
theorem IsGone.part {h : Handle} {w : World} (hw : w.Orderly) (hg : w.IsGone h) {k : Nat} {c : Call}
    {p : Part} {ps : List Part} (hc : w.calls[k]? = some ⟨c, p :: ps⟩) :
    (w.step (.part k)).IsGone h ∧ ((w.step (.part k)).Resumes h → w.Resumes h) := by
  have hmem := List.mem_of_getElem? hc
  have hne := Nat.ne_of_lt hg.made
  refine ⟨⟨Nat.lt_of_lt_of_le hg.made (length_queries_step _ w), ?_, ?_⟩, ?_⟩
  · rw [registry_step_part (next?_eq_some_iff.mpr ⟨c, ps, hc⟩)]
    intro hh
    rcases mem_handles_perform hh with hh | ⟨id, rfl⟩
    · exact hg.unregistered hh
    · exact hg.unmade _ hmem (.inl ⟨id, List.mem_cons_self ..⟩)
  · intro d hd hm
    rcases mem_calls_step_part hc hd with rfl | hd
    · rcases Ongoing.makes_proceed (hw.fits _ hmem) hm with hm | ⟨-, hh⟩
      · exact hg.unmade _ hmem hm
      · exact hne hh
    · exact hg.unmade d hd hm
  · rintro ⟨d, hd, hcall, hm⟩
    rcases mem_calls_step_part hc hd with rfl | hd
    · rcases Ongoing.start_mem_proceed hm with hm | ⟨-, hh⟩ | ⟨-, hh⟩
      · exact ⟨_, hmem, hcall, hm⟩
      · exact absurd hh hg.unregistered
      · exact absurd hh hne
    · exact ⟨d, hd, hcall, hm⟩

/-- A query that is gone stays gone, and no call begins to resume it. -/
theorem IsGone.step {h : Handle} {w : World} (hw : w.Orderly) (hg : w.IsGone h) (s : Step) :
    (w.step s).IsGone h ∧ ((w.step s).Resumes h → w.Resumes h) := by
  cases s with
  | move g m =>
    exact ⟨⟨Nat.lt_of_lt_of_le hg.made (length_queries_step _ w), hg.unregistered, hg.unmade⟩, id⟩
  | call c =>
    refine ⟨⟨hg.made, hg.unregistered, ?_⟩, ?_⟩
    · intro d hd hm
      rcases mem_calls_step_call hd with hd | rfl
      · exact hg.unmade d hd hm
      · exact Ongoing.not_makes_parts c h _ hm
    · rintro ⟨d, hd, hcall, hm⟩
      rcases mem_calls_step_call hd with hd | rfl
      · exact ⟨d, hd, hcall, hm⟩
      · exact absurd hm (Ongoing.start_not_mem_parts c h _)
  | part k =>
    cases hk : w.next? k with
    | none =>
      simp only [World.step, hk]
      exact ⟨hg, id⟩
    | some p =>
      obtain ⟨c, ps, hc⟩ := next?_eq_some_iff.mp hk
      exact hg.part hw hc
  | rearrange entries =>
    simp only [World.step]
    split
    case isFalse => exact ⟨hg, id⟩
    case isTrue hperm =>
      have hp : (entries.map Prod.snd).Perm w.registry.handles :=
        (List.isPerm_iff.mp hperm).map Prod.snd
      exact ⟨⟨hg.made, fun hh => hg.unregistered (hp.mem_iff.mp hh), hg.unmade⟩, id⟩

theorem IsGone.run {h : Handle} {w : World} (hw : w.Orderly) (hg : w.IsGone h) (ss : List Step) :
    (w.run ss).IsGone h ∧ ((w.run ss).Resumes h → w.Resumes h) := by
  induction ss generalizing w with
  | nil => exact ⟨hg, id⟩
  | cons s ss ih =>
    obtain ⟨hg', hr⟩ := hg.step hw s
    obtain ⟨hgone, hresumes⟩ := ih (hw.step s) hg'
    exact ⟨hgone, fun h => hr (hresumes h)⟩

/-! ## Going -/

/-- A query is gone from the moment on at which it is taken off the register. -/
theorem isGone_take {w : World} (hw : w.Orderly) {k : Nat} {c : Call} {id : Nat} {ps : List Part}
    {h : Handle} (hc : w.calls[k]? = some ⟨c, .take id :: ps⟩)
    (hid : w.registry.get? id = some h) : (w.step (.part k)).IsGone h := by
  have hentry : (id, h) ∈ w.registry.entries := by
    rw [Registry.get?] at hid
    obtain ⟨before, after, he, -⟩ := List.lookup_eq_some_iff.mp hid
    simp [he]
  have hh : h ∈ w.registry.handles := List.mem_map_of_mem hentry
  refine ⟨Nat.lt_of_lt_of_le (hw.registered h hh).lt_length (length_queries_step _ w), ?_, ?_⟩
  · rw [registry_step_part (next?_eq_some_iff.mpr ⟨c, ps, hc⟩)]
    intro hm
    obtain ⟨e, he, hsnd⟩ := List.mem_map.mp hm
    obtain ⟨he, hne⟩ := List.mem_filter.mp he
    -- The register holds each query once, so that the entry is the one which has been removed.
    have : e = (id, h) := List.inj_on_of_nodup_map hw.nodup he hentry hsnd
    simp [this] at hne
  · intro d hd hm
    rcases mem_calls_step_part hc hd with rfl | hd
    · rcases Ongoing.makes_proceed (hw.fits _ (List.mem_of_getElem? hc)) hm with hm | ⟨hb, -⟩
      · exact hw.unregistered _ (List.mem_of_getElem? hc) h hm hh
      · exact hb
    · exact hw.unregistered d hd h hm hh

/-- A call that has taken a query off the register is to stop it next. -/
theorem getElem?_calls_take {w : World} {k : Nat} {c : Call} {id : Nat} {ps : List Part}
    {h : Handle} (hc : w.calls[k]? = some ⟨c, .take id :: ps⟩)
    (hid : w.registry.get? id = some h) :
    (w.step (.part k)).calls[k]? = some ⟨c, .stop h :: ps⟩ := by
  rw [calls_step_part (next?_eq_some_iff.mpr ⟨c, ps, hc⟩), List.getElem?_modify_eq, hc]
  simp [Ongoing.proceed, Part.further, hid]

theorem getElem?_calls_step_of_ne {s : Step} {k : Nat} {w : World} {c : Ongoing} (hs : s ≠ .part k)
    (hc : w.calls[k]? = some c) : (w.step s).calls[k]? = some c := by
  cases s with
  | move h m => exact hc
  | call d =>
    simp only [step]
    rw [List.getElem?_append_left (List.getElem?_eq_some_iff.mp hc).1]
    exact hc
  | part j =>
    have hj : j ≠ k := fun h => hs (by rw [h])
    simp only [step]
    split
    · exact hc
    · simpa [List.getElem?_modify, hj] using hc
  | rearrange entries =>
    simp only [step]
    split <;> exact hc

/-- A call that has no turn is where it was. -/
theorem getElem?_calls_run_of_not_mem {ss : List Step} {k : Nat} {w : World} {c : Ongoing}
    (hs : .part k ∉ ss) (hc : w.calls[k]? = some c) : (w.run ss).calls[k]? = some c := by
  induction ss generalizing w with
  | nil => exact hc
  | cons s ss ih =>
    simp only [List.mem_cons, not_or] at hs
    exact ih hs.2 (getElem?_calls_step_of_ne (Ne.symm hs.1) hc)

/-! ## Staying stopped -/

/-- A query moves by the hand of somebody who holds it, or by the next part of a call under way. -/
theorem part_of_moves {s : Step} {h : Handle} {w : World} {m : Move} (hm : w.moves h s = [m]) :
    s = .move h m ∨ ∃ k p, s = .part k ∧ w.next? k = some p ∧ p.move? = some (h, m) := by
  have hs := move?_of_moves hm
  cases s with
  | move g n =>
    cases hs
    exact .inl rfl
  | part k =>
    obtain ⟨p, hk, hp⟩ := Option.bind_eq_some_iff.mp hs
    exact .inr ⟨k, p, rfl, hk, hp⟩
  | call | rearrange => cases hs

/-- The next part of a call is one that it has to do. -/
theorem mem_todo_of_next? {w : World} {k : Nat} {p : Part} (hk : w.next? k = some p) :
    ∃ c ∈ w.calls, p ∈ c.todo := by
  obtain ⟨c, ps, hc⟩ := next?_eq_some_iff.mp hk
  exact ⟨_, List.mem_of_getElem? hc, List.mem_cons_self ..⟩

/-- A query is started by somebody who holds it, or by a call under way. -/
theorem start_of_moves {s : Step} {h : Handle} {w : World} (hm : w.moves h s = [.start]) :
    s = .move h .start ∨ ∃ c ∈ w.calls, .start h ∈ c.todo := by
  rcases part_of_moves hm with hs | ⟨k, p, -, hk, hp⟩
  · exact .inl hs
  · cases Part.eq_start_of_move? hp
    exact .inr (mem_todo_of_next? hk)

/-- A query is stopped by somebody who holds it, or by a call under way. -/
theorem stop_of_moves {s : Step} {h : Handle} {w : World} (hm : w.moves h s = [.stop]) :
    s = .move h .stop ∨ ∃ c ∈ w.calls, .stop h ∈ c.todo := by
  rcases part_of_moves hm with hs | ⟨k, p, -, hk, hp⟩
  · exact .inl hs
  · cases Part.eq_stop_of_move? hp
    exact .inr (mem_todo_of_next? hk)

/-- A query begins to poll by a start of it, which somebody gives it or a call under way. -/
theorem isPolling_of_step {s : Step} {h : Handle} {w : World} (hp : (w.step s).IsPolling h)
    (hlt : h < w.registry.queries.length) :
    w.IsPolling h ∨ s = .move h .start ∨ ∃ c ∈ w.calls, .start h ∈ c.todo := by
  obtain ⟨q', hq', hp⟩ := hp
  have hq : w.query? h = some w.registry.queries[h] := List.getElem?_eq_getElem hlt
  rw [query?_step hq, Option.some.injEq] at hq'
  subst hq'
  by_cases hm : w.moves h s = [.start]
  · exact .inr (start_of_moves hm)
  · left
    refine ⟨_, hq, ?_⟩
    rcases moves_eq_nil_or h s w with hn | ⟨m, hn⟩
    · simpa [hn] using hp
    · rw [hn] at hp hm
      exact Query.isPolling_of_move (fun h => hm (by rw [h])) hp

/-- A query that a call has just stopped does not poll. -/
theorem not_isPolling_stop {w : World} {k : Nat} {h : Handle} (hk : w.next? k = some (.stop h)) :
    ¬ (w.step (.part k)).IsPolling h := by
  rintro ⟨q', hq', hp⟩
  have hs : w.move? (.part k) = some (h, .stop) := by simp [move?, hk, Part.move?]
  rw [query?_step_of_move? hs, if_pos rfl, Option.map_eq_some_iff] at hq'
  obtain ⟨q, -, rfl⟩ := hq'
  rw [Query.isPolling_stop] at hp
  cases hp

/-- A query that is gone and that no call resumes stays stopped until somebody starts it. -/
theorem IsGone.stays_stopped {h : Handle} {w : World} (hw : w.Orderly) (hg : w.IsGone h)
    (hr : ¬ w.Resumes h) (hp : ¬ w.IsPolling h) {later : List Step}
    (hl : .move h .start ∉ later) : ¬ (w.run later).IsPolling h := by
  induction later generalizing w with
  | nil => exact hp
  | cons s later ih =>
    simp only [List.mem_cons, not_or] at hl
    obtain ⟨hg', hr'⟩ := hg.step hw s
    refine ih (hw.step s) hg' (fun h => hr (hr' h)) ?_ hl.2
    intro hp'
    rcases isPolling_of_step hp' hg.made with hp' | hs | ⟨c, hc, hm⟩
    · exact hp hp'
    · exact hl.1 hs.symm
    · exact hr (hg.resumes_of_start hc hm)

/-- A call that has a query to start, left alone, makes it poll. -/
theorem exists_isPolling_of_start {h : Handle} {w : World} (hw : w.Orderly) {c : Ongoing}
    (hc : c ∈ w.calls) (hm : .start h ∈ c.todo) :
    ∃ k n, (w.run (List.replicate n (.part k))).IsPolling h := by
  obtain ⟨k, hk⟩ := List.mem_iff_getElem?.mp hc
  obtain ⟨first, rest, htodo⟩ := List.append_of_mem hm
  obtain ⟨r', hf⟩ := exists_finishes first w.registry
  have hcall : w.calls[k]? = some ⟨c.call, first ++ .start h :: rest⟩ := by rw [hk, ← htodo]
  obtain ⟨n, -, hn⟩ := hf.run rfl hcall
  obtain ⟨q, hq, ho⟩ := polls_run (hw.named c hc h (.inl hm)) (List.replicate n (.part k))
  refine ⟨k, n + 1, q.move .start, ?_, Query.isPolling_start ho⟩
  rw [List.replicate_succ', run_append]
  have hmove : (w.run (List.replicate n (.part k))).moves h (.part k) = [.start] := by
    simp [moves, hq, move?, next?_eq_some_iff.mpr ⟨_, _, hn⟩, Part.move?]
  rw [run_cons, run_nil, query?_step hq, hmove]
  rfl

/-- Whatever else is under way, when a query has been disposed of (its entry has been removed, and
then it has been stopped, by a call that has nothing left to do for it), it stays stopped until
somebody who holds it starts it exactly if no call that starts all queries has its handle and is
still to start it. -/
theorem disposed_stays_stopped_iff {client : Client} {before meanwhile : List Step} {k id : Nat}
    {h : Handle} (hk : ((start client).run before).next? k = some (.take id))
    (hid : ((start client).run before).registry.get? id = some h)
    (hmeanwhile : .part k ∉ meanwhile) :
    let disposed := ((((start client).run before).step (.part k)).run meanwhile).step (.part k)
    (∀ later, .move h .start ∉ later → ¬ (disposed.run later).IsPolling h) ↔
      ¬ ∃ c ∈ disposed.calls, c.call = .resumeAll ∧ .start h ∈ c.todo := by
  intro disposed
  have hw := orderly_run_start client before
  obtain ⟨c, ps, hc⟩ := next?_eq_some_iff.mp hk
  have hw₁ := hw.step (.part k)
  have hg₁ := isGone_take hw hc hid
  have hw₂ := hw₁.run meanwhile
  have hg₂ := (hg₁.run hw₁ meanwhile).1
  have hw₃ : disposed.Orderly := hw₂.step (.part k)
  have hg₃ : disposed.IsGone h := (hg₂.step hw₂ (.part k)).1
  have hc₂ := getElem?_calls_run_of_not_mem hmeanwhile (getElem?_calls_take hc hid)
  have hstop : ¬ disposed.IsPolling h := not_isPolling_stop (next?_eq_some_iff.mpr ⟨c, ps, hc₂⟩)
  constructor
  · rintro hquiet ⟨d, hd, -, hm⟩
    obtain ⟨j, n, hp⟩ := exists_isPolling_of_start hw₃ hd hm
    exact hquiet _ (by simp) hp
  · intro hr later hl
    exact hg₃.stays_stopped hw₃ hr hstop hl

/-- A query that polls is made and registered, and a call that is to dispose of it begins. -/
def disposing : List Step :=
  [.call (.create (some EndpointName.flow.endpoint) .empty ⟨1000⟩ true), .part 0, .part 0, .part 0,
    .part 0, .part 0, .call (.dispose 0)]

/-- If its loop begins a request before it is stopped, and no other call is under way, the query
stays stopped. -/
theorem disposed_stays_stopped_in_flight :
    let disposed := ((((start default).run disposing).step (.part 1)).run
      [.move 0 (.beginLoop 0)]).step (.part 1)
    ∀ later, .move 0 .start ∉ later → ¬ (disposed.run later).IsPolling 0 := by
  have hk : ((start default).run disposing).next? 1 = some (.take 0) := rfl
  have hid : ((start default).run disposing).registry.get? 0 = some 0 := rfl
  refine (disposed_stays_stopped_iff hk hid (by simp)).mpr ?_
  rintro ⟨c, hc, hcall, -⟩
  rcases List.mem_cons.mp hc with rfl | hc
  · cases hcall
  · cases List.mem_singleton.mp hc
    cases hcall

/-- If a call that starts all queries has copied its handle before, the query polls again when that
call comes to it, so that not every query that has been disposed of stays stopped. -/
theorem disposed_polls_again :
    ¬ ∀ (client : Client) (before meanwhile : List Step) (k id : Nat) (h : Handle),
      ((start client).run before).calls[k]? = some ⟨.dispose id, [.take id]⟩ →
      ((start client).run before).registry.get? id = some h → .part k ∉ meanwhile →
      ∀ later, .move h .start ∉ later →
        ¬ ((((((start client).run before).step (.part k)).run meanwhile).step (.part k)).run
          later).IsPolling h := by
  intro hstays
  exact hstays default (disposing ++ [.call .resumeAll, .part 2]) [] 1 0 0 rfl rfl (by simp)
    [.part 2] (by simp) ⟨_, rfl, rfl⟩

end World
end LiveQuery
