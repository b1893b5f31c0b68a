import LiveQuery.Proofs.Registry.Disposal
import LiveQuery.Proofs.Registry.Polling

/-!
# Queries that are quiet for good

A query that is gone polls again only if it still polls or if a call under way is to start it, and
where neither is so it stays stopped until somebody who holds it starts it. If every loop of it has
had its first turn besides, it is quiet: it sends nothing more.
-/

namespace LiveQuery
namespace World

variable {h : Handle} {w : World}

/-- A query polls, or a call that has copied its handle is to start it. -/
def Revives (h : Handle) (w : World) : Prop := w.IsPolling h ∨ w.Resumes h

/-- No step makes a query that is gone revive but a start by somebody who holds it. -/
theorem IsGone.revives_of_step (hw : w.Orderly) (hg : w.IsGone h) {s : Step}
    (hs : s ≠ .move h .start) (hr : (w.step s).Revives h) : w.Revives h := by
  rcases hr with hp | hr
  · rcases isPolling_of_step hp hg.made with hp | hm | ⟨c, hc, hstart⟩
    · exact .inl hp
    · exact absurd hm hs
    · exact .inr (hg.resumes_of_start hc hstart)
  · exact .inr ((hg.step hw s).2 hr)

/-- A query is started by a call under way that resumes it if it is gone. -/
theorem IsGone.resumes_of_moves (hg : w.IsGone h) {s : Step} (hs : s ≠ .move h .start)
    (hm : w.moves h s = [.start]) : w.Resumes h := by
  rcases start_of_moves hm with hm | ⟨c, hc, hstart⟩
  · exact absurd hm hs
  · exact hg.resumes_of_start hc hstart

/-- A query that polls does so after any step that does not stop it. -/
theorem isPolling_step (hpolls : w.Polls h) (hp : w.IsPolling h) {s : Step}
    (hs : w.moves h s ≠ [.stop]) : (w.step s).IsPolling h := by
  obtain ⟨q, hq, hp⟩ := hp
  obtain ⟨q', hq', ho⟩ := hpolls
  cases hq.symm.trans hq'
  refine ⟨_, query?_step hq, ?_⟩
  rcases moves_eq_nil_or h s w with hm | ⟨m, hm⟩
  · rw [hm]
    exact hp
  · rw [hm] at hs ⊢
    exact Query.isPolling_move (fun he => hs (by rw [he])) ho hp

/-- A call that is to start a query is still to do so after a step, or has just made it poll. -/
theorem revives_of_resumes (hw : w.Orderly) (hr : w.Resumes h) (s : Step) :
    (w.step s).Revives h := by
  obtain ⟨⟨c, todo⟩, hc, rfl, hm⟩ := hr
  obtain ⟨k, hk⟩ := List.mem_iff_getElem?.mp hc
  by_cases hs : s = .part k
  · subst hs
    cases todo with
    | nil => cases hm
    | cons p ps =>
      have hnext : w.next? k = some p := next?_eq_some_iff.mpr ⟨_, ps, hk⟩
      rcases List.mem_cons.mp hm with rfl | hm
      · obtain ⟨q, hq, ho⟩ := hw.named _ hc h (.inl (List.mem_cons_self ..))
        have hmove : w.move? (.part k) = some (h, .start) := by simp [move?, hnext, Part.move?]
        refine .inl ⟨q.move .start, ?_, Query.isPolling_start ho⟩
        rw [query?_step_of_move? hmove, if_pos rfl, hq, Option.map_some]
      · refine .inr ⟨⟨.resumeAll, p.further w.registry ++ ps⟩, ?_, rfl, ?_⟩
        · apply List.mem_of_getElem? (i := k)
          rw [calls_step_part hnext, List.getElem?_modify_eq, hk]
          rfl
        · exact List.mem_append_right _ hm
  · exact .inr ⟨_, List.mem_of_getElem? (getElem?_calls_step_of_ne hs hk), rfl, hm⟩

/-- The query is off the register for good, it does not revive, and every loop of it has had its
first turn. -/
structure IsQuiet (h : Handle) (w : World) : Prop where
  gone : w.IsGone h
  unrevived : ¬ w.Revives h
  timed : ∀ q, w.query? h = some q → q.WellTimed
  begun : ∀ q, w.query? h = some q → ∀ i, (q.phase i).hasBegun = true

/-- No loop of a query that is quiet begins a request. -/
theorem IsQuiet.not_begins (hq : w.IsQuiet h) (s : Step) (i : Nat) : ¬ w.Begins s h i := by
  intro hb
  obtain ⟨q, hquery⟩ := hb.exists_query
  obtain ⟨m, -, hm⟩ := (begins_iff hquery).mp hb
  rcases hm.cases with hp | ⟨-, hc⟩
  · have hbegun := hq.begun q hquery i
    rw [hp] at hbegun
    cases hbegun
  · have htimed := hq.timed q hquery
    have htimer : q.timer = some i := (htimed.timer_iff i).mpr hc
    exact hq.unrevived (.inl ⟨q, hquery, htimed.isPolling_iff.mpr ⟨i, htimer⟩⟩)

/-- It stays quiet until somebody who holds it starts it. -/
theorem IsQuiet.step (hw : w.Orderly) (hq : w.IsQuiet h) {s : Step} (hs : s ≠ .move h .start) :
    (w.step s).IsQuiet h := by
  have hlt : h < w.registry.queries.length := hq.gone.made
  have hquery : w.query? h = some w.registry.queries[h] := List.getElem?_eq_getElem hlt
  refine ⟨(hq.gone.step hw s).1, fun hr => hq.unrevived (hq.gone.revives_of_step hw hs hr), ?_, ?_⟩
  · intro q hq'
    rw [query?_step hquery, Option.some.injEq] at hq'
    rw [← hq']
    exact Query.wellTimed_run _ (hq.timed _ hquery)
  · intro q hq' i
    rw [query?_step hquery, Option.some.injEq] at hq'
    rw [← hq']
    refine Query.phase_hasBegun_run ?_ (hq.begun _ hquery i)
    rcases moves_eq_nil_or h s w with hm | ⟨m, hm⟩
    · simp [hm]
    · rw [hm, List.mem_singleton]
      rintro rfl
      exact hq.unrevived (.inr (hq.gone.resumes_of_moves hs hm))

/-- A query that does not poll is quiet from the first: it is never registered and has no loop. -/
theorem isQuiet_of_not_isPolling (hw : w.Orderly) {q : Query} (hquery : w.query? h = some q)
    (hq : q.WellTimed) (ho : q.options.isPolling = false) : w.IsQuiet h := by
  have hpolls : ¬ w.Polls h := by
    rintro ⟨q', hq', ho'⟩
    cases hquery.symm.trans hq'
    rw [ho] at ho'
    cases ho'
  have hloops := hq.no_loops ho
  have htimer : q.isPolling = false := by
    rw [← Bool.not_eq_true, hq.isPolling_iff]
    rintro ⟨i, hi⟩
    have hc := (hq.timer_iff i).mp hi
    simp [Query.isCancelled, hloops] at hc
  refine ⟨⟨(List.getElem?_eq_some_iff.mp hquery).1, ?_, ?_⟩, ?_, ?_, ?_⟩
  · exact fun hh => hpolls (hw.registered h hh)
  · exact fun c hc hm => hpolls (hw.named c hc h hm.named)
  · rintro (⟨q', hq', hp⟩ | ⟨c, hc, -, hm⟩)
    · cases hquery.symm.trans hq'
      rw [htimer] at hp
      cases hp
    · exact hpolls (hw.named c hc h (.inl hm))
  · intro q' hq'
    cases hquery.symm.trans hq'
    exact hq
  · intro q' hq' i
    cases hquery.symm.trans hq'
    simp [Query.phase, hloops, Phase.hasBegun]

end World
end LiveQuery
