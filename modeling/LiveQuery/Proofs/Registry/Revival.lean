import LiveQuery.Proofs.Registry.Quiet
import LiveQuery.Proofs.Registry.Watching

/-!
# Disposals beside a watcher

The register of a view is its own: besides the tasks of the query only the calls of a watcher and
the one call that disposes of the query are under way on it. If none of them is to start the query
when it is stopped, it does not revive; if the watcher is resuming it just then, the query polls
again, and nothing is left that would stop it.
-/

namespace LiveQuery

/-- What a call of a watcher has to do, and what is left of a call that disposes of a query once it
has taken it off the register. -/
inductive Part.Serves : Call → Part → Prop
  | copyStart : Serves .resumeAll (.copy true)
  | start (h : Handle) : Serves .resumeAll (.start h)
  | spawn (h : Handle) (i : Nat) : Serves .resumeAll (.spawn h i)
  | copyStop : Serves .pauseAll (.copy false)
  | stopAll (h : Handle) : Serves .pauseAll (.stop h)
  | stop (id : Nat) (h : Handle) : Serves (.dispose id) (.stop h)

namespace Part.Serves

variable {c : Call} {p : Part}

theorem further (hp : Serves c p) {p' : Part} {r : Registry} (hf : Follows r p p') :
    Serves c p' := by
  cases hp with
  | copyStart => cases hf; exact .start _
  | start h => cases hf; exact .spawn h _
  | copyStop => cases hf; exact .stopAll _
  | spawn | stopAll | stop => cases hf

theorem entries_perform (hp : Serves c p) (r : Registry) : (p.perform r).entries = r.entries := by
  cases hp <;> rfl

theorem parts_ofVisibility {v : Visibility} {r : Registry}
    (hm : p ∈ (Call.ofVisibility v).parts r) : Serves (.ofVisibility v) p := by
  cases v with
  | hidden =>
    cases List.mem_singleton.mp hm
    exact .copyStop
  | visible =>
    cases List.mem_singleton.mp hm
    exact .copyStart

/-- Only copied handles are stopped anew. -/
theorem registered_of_follows_stop (hp : Serves c p) {r : Registry} {h : Handle}
    (hf : Follows r p (.stop h)) : h ∈ r.handles := by
  cases hp with
  | copyStop =>
    cases hf with
    | stopAll hh => exact hh
  | copyStart | start | spawn | stopAll | stop => cases hf

end Part.Serves

namespace World

/-- A step that is no call, and by which nobody starts or stops a query by hand. -/
def Step.goesOn : Step → Bool
  | .move _ m => !m.swaps
  | .part _ | .rearrange _ => true
  | .call _ => false

theorem Step.ne_of_goesOn {t : Step} (ht : t.goesOn = true) (h : Handle) :
    t ≠ .move h .start ∧ t ≠ .move h .stop := by
  constructor <;> (rintro rfl; cases ht)

/-- In a world in which nothing has happened nothing goes on. -/
theorem step_start {client : Client} {t : Step} (ht : t.goesOn = true) :
    (start client).step t = start client := by
  cases t with
  | move g m => simp [step, start, Registry.amend, Registry.empty]
  | part => rfl
  | call => cases ht
  | rearrange entries =>
    simp only [step]
    split
    case isFalse => rfl
    case isTrue hperm =>
      have hnil : entries = [] := (List.isPerm_iff.mp hperm).eq_nil
      rw [hnil]
      rfl

variable {w : World}

/-! ## Whose calls are under way -/

/-- Every call under way is one of a watcher's or one that disposes of a query. -/
def IsServed (w : World) : Prop := ∀ c ∈ w.calls, ∀ p ∈ c.todo, Part.Serves c.call p

theorem IsServed.part (hw : w.IsServed) (k : Nat) : (w.step (.part k)).IsServed := by
  cases hk : w.next? k with
  | none => simpa only [step, hk] using hw
  | some p =>
    obtain ⟨c, ps, hc⟩ := next?_eq_some_iff.mp hk
    intro d hd p' hp'
    rcases mem_calls_step_part hc hd with rfl | hd
    · rcases List.mem_append.mp hp' with hp' | hp'
      · have hserves := hw _ (List.mem_of_getElem? hc) p (List.mem_cons_self ..)
        exact hserves.further (Part.follows_of_mem_further hp')
      · exact hw _ (List.mem_of_getElem? hc) p' (List.mem_cons_of_mem p hp')
    · exact hw d hd p' hp'

theorem IsServed.goesOn (hw : w.IsServed) {t : Step} (ht : t.goesOn = true) :
    (w.step t).IsServed := by
  cases t with
  | move => exact hw
  | part k => exact hw.part k
  | call => cases ht
  | rearrange =>
    simp only [step]
    split <;> exact hw

theorem IsServed.acts (hw : w.IsServed) (v : Visibility) :
    (w.step (.call (.ofVisibility v))).IsServed := by
  intro d hd p hp
  rcases mem_calls_step_call hd with hd | rfl
  · exact hw d hd p hp
  · exact .parts_ofVisibility hp

/-- Where the register is left alone it keeps its entries, if perhaps not their places. -/
theorem IsServed.entries_goesOn (hw : w.IsServed) {t : Step} (ht : t.goesOn = true) :
    (w.step t).registry.entries.Perm w.registry.entries := by
  cases t with
  | move => exact .refl _
  | call => cases ht
  | part k =>
    cases hk : w.next? k with
    | none => simp only [step, hk]; exact .refl _
    | some p =>
      obtain ⟨c, hc, hp⟩ := mem_todo_of_next? hk
      rw [registry_step_part hk, (hw c hc p hp).entries_perform]
  | rearrange entries =>
    simp only [step]
    split
    case isFalse => exact .refl _
    case isTrue hperm => exact List.isPerm_iff.mp hperm

/-- What a call still has to do after a step it had to do something before. -/
theorem exists_busy_of_goesOn {t : Step} (ht : t.goesOn = true) {i : Nat} {d : Ongoing}
    (hd : (w.step t).calls[i]? = some d) (hne : d.todo ≠ []) :
    ∃ c, w.calls[i]? = some c ∧ c.todo ≠ [] := by
  cases t with
  | move => exact ⟨d, hd, hne⟩
  | call => cases ht
  | rearrange =>
    refine ⟨d, ?_, hne⟩
    simp only [step] at hd
    split at hd <;> exact hd
  | part k =>
    cases hk : w.next? k with
    | none =>
      simp only [step, hk] at hd
      exact ⟨d, hd, hne⟩
    | some p =>
      obtain ⟨c, ps, hc⟩ := next?_eq_some_iff.mp hk
      rcases getElem?_calls_step_part hc hd with ⟨rfl, -⟩ | ⟨-, hd⟩
      · exact ⟨_, hc, by simp⟩
      · exact ⟨d, hd, hne⟩

/-! ## Stops that are still to come -/

/-- A call under way is to stop a query. -/
def Halts (h : Handle) (w : World) : Prop := ∃ c ∈ w.calls, .stop h ∈ c.todo

/-- A query that is gone is stopped by nothing but what was to stop it before. -/
theorem IsServed.halts_of_goesOn (hw : w.IsServed) {h : Handle} (hg : h ∉ w.registry.handles)
    {t : Step} (ht : t.goesOn = true) (hs : (w.step t).Halts h) : w.Halts h := by
  obtain ⟨d, hd, hm⟩ := hs
  cases t with
  | move => exact ⟨d, hd, hm⟩
  | call => cases ht
  | rearrange =>
    refine ⟨d, ?_, hm⟩
    simp only [step] at hd
    split at hd <;> exact hd
  | part k =>
    cases hk : w.next? k with
    | none =>
      simp only [step, hk] at hd
      exact ⟨d, hd, hm⟩
    | some p =>
      obtain ⟨c, ps, hc⟩ := next?_eq_some_iff.mp hk
      have hmem := List.mem_of_getElem? hc
      rcases mem_calls_step_part hc hd with rfl | hd
      · rcases List.mem_append.mp hm with hm | hm
        · have hserves := hw _ hmem p (List.mem_cons_self ..)
          exact absurd (hserves.registered_of_follows_stop (Part.follows_of_mem_further hm)) hg
        · exact ⟨_, hmem, List.mem_cons_of_mem p hm⟩
      · exact ⟨d, hd, hm⟩

theorem halts_of_acts {h : Handle} {v : Visibility}
    (hs : (w.step (.call (.ofVisibility v))).Halts h) : w.Halts h := by
  obtain ⟨d, hd, hm⟩ := hs
  rcases mem_calls_step_call hd with hd | rfl
  · exact ⟨d, hd, hm⟩
  · cases v with
    | hidden | visible => cases List.mem_singleton.mp hm

/-! ## Disposals -/

/-- What becomes of a query that the call at a place disposes of: the call is to stop it, or has done
so. The query revives exactly if it was resumed when it was stopped, and then nothing stops it any
more. -/
inductive Disposal (k id : Nat) (h : Handle) (resumed : Prop) (w : World) : Prop
  | taken (hc : w.calls[k]? = some ⟨.dispose id, [.stop h]⟩) (hr : ¬ resumed)
  | stopped (hc : w.calls[k]? = some ⟨.dispose id, []⟩) (hr : resumed ↔ w.Revives h)
    (hs : resumed → ¬ w.Halts h)

variable {k id : Nat} {h : Handle} {resumed : Prop}

/-- The world in which a call has begun to dispose of a query and has taken it off the register. -/
def beginDispose (id : Nat) (w : World) : World :=
  (w.step (.call (.dispose id))).step (.part w.calls.length)

theorem getElem?_calls_dispose (id : Nat) (w : World) :
    (w.step (.call (.dispose id))).calls[w.calls.length]? = some ⟨.dispose id, [.take id]⟩ := by
  simp [step, Call.parts]

theorem registry_beginDispose (id : Nat) (w : World) :
    (w.beginDispose id).registry = w.registry.remove id := by
  rw [beginDispose, registry_step_part (next?_eq_some_iff.mpr ⟨_, _, getElem?_calls_dispose id w⟩)]
  rfl

theorem calls_beginDispose (hid : w.registry.get? id = some h) :
    (w.beginDispose id).calls = w.calls ++ [⟨.dispose id, [.stop h]⟩] := by
  rw [beginDispose, calls_step_part (next?_eq_some_iff.mpr ⟨_, _, getElem?_calls_dispose id w⟩),
    List.modify_eq_take_drop]
  simp [step, Call.parts, Ongoing.proceed, Part.further, hid]

/-- Left alone, the call stops the query and has come to its end. -/
theorem beginDispose_alone (hid : w.registry.get? id = some h) :
    let done := (w.beginDispose id).step (.part w.calls.length)
    done.registry = ((w.registry.remove id).stopQuery h).1 ∧
      done.calls[w.calls.length]? = some ⟨.dispose id, []⟩ := by
  have hcall : (w.beginDispose id).calls[w.calls.length]? = some ⟨.dispose id, [.stop h]⟩ := by
    simp [calls_beginDispose hid]
  have hnext := next?_eq_some_iff.mpr ⟨_, _, hcall⟩
  constructor
  · rw [registry_step_part hnext, registry_beginDispose, Registry.stopQuery_eq_amend]
    rfl
  · rw [calls_step_part hnext, List.getElem?_modify_eq, hcall]
    rfl

theorem isGone_beginDispose (hw : w.Orderly) (hid : w.registry.get? id = some h) :
    (w.beginDispose id).IsGone h :=
  isGone_take (hw.call _) (getElem?_calls_dispose id w) hid

/-- A watcher that is resuming the queries has no query to stop, and the call that disposes of one
has done so. -/
theorem IsServed.not_halts (hw : w.IsServed) {action? : Option Nat}
    (hbusy : ∀ i c, w.calls[i]? = some c → c.todo ≠ [] → action? = some i ∨ i = k)
    (hc : w.calls[k]? = some ⟨.dispose id, []⟩) (hr : w.Resumes h) : ¬ w.Halts h := by
  rintro ⟨d, hd, hstop⟩
  obtain ⟨c, hcm, hcall, hstart⟩ := hr
  obtain ⟨i, hi⟩ := List.mem_iff_getElem?.mp hcm
  obtain ⟨j, hj⟩ := List.mem_iff_getElem?.mp hd
  have hik : i ≠ k := by
    rintro rfl
    rw [hi, Option.some.injEq] at hc
    rw [hc] at hcall
    cases hcall
  have hjk : j ≠ k := by
    rintro rfl
    rw [hj, Option.some.injEq] at hc
    rw [hc] at hstop
    cases hstop
  have hiaction := (hbusy i c hi (List.ne_nil_of_mem hstart)).resolve_right hik
  have hjaction := (hbusy j d hj (List.ne_nil_of_mem hstop)).resolve_right hjk
  obtain rfl : i = j := by
    rw [hiaction] at hjaction
    exact Option.some.inj hjaction
  have hcd : d = c := Option.some.inj (hj.symm.trans hi)
  have hserves := hw c hcm (.stop h) (hcd ▸ hstop)
  rw [hcall] at hserves
  cases hserves

/-- A disposal goes on in every step by which nobody starts or stops the query by hand and no call
comes to stop it. -/
theorem Disposal.step (hw : w.Orderly) (hg : w.IsGone h) (hpolls : w.Polls h)
    (hd : w.Disposal k id h resumed) {t : Step} (hstart : t ≠ .move h .start)
    (hstop : t ≠ .move h .stop) (hhalts : (w.step t).Halts h → w.Halts h)
    (hresumes : (w.step t).calls[k]? = some ⟨.dispose id, []⟩ → (w.step t).Resumes h →
      ¬ (w.step t).Halts h) :
    (w.step t).Disposal k id h
      (resumed ∨ (t = .part k ∧ w.next? k = some (.stop h) ∧ (w.step t).Resumes h)) := by
  cases hd with
  | taken hc hr =>
    by_cases ht : t = .part k
    · subst ht
      have hnext : w.next? k = some (.stop h) := next?_eq_some_iff.mpr ⟨_, _, hc⟩
      have hdone : (w.step (.part k)).calls[k]? = some ⟨.dispose id, []⟩ := by
        rw [calls_step_part hnext, List.getElem?_modify_eq, hc]
        rfl
      have hstopped : ¬ (w.step (.part k)).IsPolling h := not_isPolling_stop hnext
      refine .stopped hdone ?_ ?_
      · simp [hr, hnext, Revives, hstopped]
      · rintro (h | ⟨-, -, hres⟩)
        · exact absurd h hr
        · exact hresumes hdone hres
    · refine .taken (getElem?_calls_step_of_ne ht hc) ?_
      rintro (h | ⟨h, -⟩)
      · exact hr h
      · exact ht h
  | stopped hc hr hs =>
    have hnext : w.next? k = none := by simp [next?, hc]
    have hsame : (w.step t).calls[k]? = some ⟨.dispose id, []⟩ := by
      by_cases ht : t = .part k
      · subst ht
        simpa only [World.step, hnext] using hc
      · exact getElem?_calls_step_of_ne ht hc
    have hrevives : resumed ↔ (w.step t).Revives h := by
      rw [hr]
      constructor
      · rintro (hp | hres)
        · refine .inl (isPolling_step hpolls hp ?_)
          intro hm
          rcases stop_of_moves hm with hm | hm
          · exact hstop hm
          · exact hs (hr.mpr (.inl hp)) hm
        · exact revives_of_resumes hw hres t
      · exact hg.revives_of_step hw hstart
    refine .stopped hsame ?_ ?_
    · simpa [hnext] using hrevives
    · rintro (h | ⟨-, h, -⟩)
      · exact fun hh => hs h (hhalts hh)
      · rw [hnext] at h
        cases h

end World
end LiveQuery
