import LiveQuery.Proofs.Query.Outcome
import LiveQuery.Proofs.Registry.World

/-!
# Fetches in a world

Whatever runs at the same time, a fetch that settles leaves its own response or its own error
behind. What a success does not do is take away the error of another fetch: that goes only when a
fetch begins. So a success leaves no error exactly if no fetch has failed since the last one began.
-/

namespace LiveQuery
namespace World

/-- What a step does to the fetches of a query. -/
def event? (h : Handle) (s : Step) (w : World) : Option FetchEvent :=
  match w.query? h, w.moves h s with
  | some q, [m] => m.event? q
  | _, _ => none

/-- What happens to the fetches of a query in a run. -/
def events (h : Handle) : List Step → World → List FetchEvent
  | [], _ => []
  | s :: ss, w => (w.event? h s).toList ++ events h ss (w.step s)

theorem event?_of_none {h : Handle} {w : World} (hn : w.query? h = none) (s : Step) :
    w.event? h s = none := by
  simp [event?, hn]

/-- The event of a step is that of the move which the step is for the query. -/
theorem event?_toList {s : Step} {h : Handle} {w : World} {q : Query} (hq : w.query? h = some q) :
    (w.event? h s).toList = q.events (w.moves h s) := by
  rcases moves_eq_nil_or h s w with hm | ⟨m, hm⟩
  · simp [event?, hq, hm, Query.events]
  · simp [event?, hq, hm, Query.events]

theorem events_of_query? {ss : List Step} {h : Handle} {w : World} {q : Query}
    (hq : w.query? h = some q) : w.events h ss = q.events (w.history h ss) := by
  induction ss generalizing w q with
  | nil => rfl
  | cons s ss ih =>
    rw [events, history_cons, Query.events_append, event?_toList hq, ih (query?_step hq)]

/-- The error of a query is that of a fetch of its after whose failure no fetch has begun or failed:
nothing but successes have come. -/
theorem error_eq_some_iff {ss : List Step} {h : Handle} {w : World} {q : Query}
    (hn : w.query? h = none) (hq : (w.run ss).query? h = some q) (e : FetchError) :
    q.snapshot.error = some e ↔ Query.EndsInFailure e (w.events h ss) := by
  induction ss generalizing w with
  | nil => exact absurd (hn.symm.trans hq) (by simp)
  | cons s ss ih =>
    rw [events, event?_of_none hn, Option.toList_none, List.nil_append]
    cases hs : (w.step s).query? h with
    | none => exact ih hs hq
    | some q₀ =>
      obtain ⟨id, c, f, o, rfl⟩ := query?_step_of_none hn hs
      rw [run_cons, query?_run hs, Option.some.injEq] at hq
      rw [← hq, events_of_query? hs]
      exact Query.error_run_iff rfl _ e

/-- Whatever else is under way, right after a failure the error is that of the fetch that failed and
the response is the one from before; right after a success the response is that of the fetch that
succeeded, and there is no error exactly if no fetch of the query has failed since the last one
began. -/
theorem error_after_settling {client : Client} {ss : List Step} {s : Step} {h : Handle}
    {q q' : Query} {result : Except FetchError Response}
    (hq : ((start client).run ss).query? h = some q)
    (hs : ((start client).run ss).event? h s = some (.settled result))
    (hq' : (((start client).run ss).step s).query? h = some q') :
    match result with
    | .error e => q'.snapshot.error = some e ∧ q'.snapshot.response = q.snapshot.response
    | .ok r => q'.snapshot.response = some r ∧
        (q'.snapshot.error = none ↔ ∀ e, ¬ Query.EndsInFailure e ((start client).events h ss)) := by
  obtain ⟨m, hm, hv⟩ : ∃ m, ((start client).run ss).moves h s = [m] ∧
      m.event? q = some (.settled result) := by
    rcases moves_eq_nil_or h s ((start client).run ss) with hm | ⟨m, hm⟩
    · simp [event?, hq, hm] at hs
    · exact ⟨m, hm, by simpa [event?, hq, hm] using hs⟩
  rw [query?_step hq, hm, Option.some.injEq] at hq'
  subst hq'
  have herr := Query.error_move hv
  have hres := Query.response_move hv
  rw [Query.run_cons, Query.run_nil, herr, hres]
  cases result with
  | error e => exact ⟨rfl, rfl⟩
  | ok r =>
    refine ⟨rfl, ?_⟩
    simp only [FetchEvent.error, Option.eq_none_iff_forall_ne_some, ne_eq]
    exact forall_congr' fun e => not_congr (error_eq_some_iff rfl hq e)

/-- A query that polls is made and started anew while its first request is on its way; then that
request fails, with the request of the second loop on its way. -/
def overlapping : List Step :=
  [.call (.make 0 (some EndpointName.flow.endpoint) .empty ⟨1000⟩ true), .part 0, .part 0, .part 0,
    .move 0 (.beginLoop 0), .move 0 .start, .move 0 (.spawn 1), .move 0 (.beginLoop 1),
    .move 0 (.settleLoop 0 (.error (.transport "refused")) ⟨0, 0⟩ 0)]

/-- The request of the second loop fails too: the error is then its own. -/
theorem error_after_settling_overlapping :
    ∃ q', (((start default).run overlapping).step
        (.move 0 (.settleLoop 1 (.error (.timeout 1)) ⟨1, 0⟩ 0))).query? 0 = some q' ∧
      q'.snapshot.error = some (.timeout 1) := by
  have hq : ((start default).run overlapping).query? 0 = some _ := rfl
  have hs : ((start default).run overlapping).event? 0
      (.move 0 (.settleLoop 1 (.error (.timeout 1)) ⟨1, 0⟩ 0)) =
        some (.settled (.error (.timeout 1))) := rfl
  exact ⟨_, rfl, (error_after_settling hq hs rfl).1⟩

/-- The request of the second loop succeeds: the error of the first stays, so that a success does
not always leave none. -/
theorem error_left_by_success :
    ¬ ∀ (client : Client) (ss : List Step) (s : Step) (h : Handle) (q' : Query) (r : Response),
      ((start client).run ss).event? h s = some (.settled (.ok r)) →
      (((start client).run ss).step s).query? h = some q' → q'.snapshot.error = none := by
  intro hnone
  have := hnone default overlapping (.move 0 (.settleLoop 1 (.ok (.json .null)) ⟨1, 0⟩ 0)) 0 _
    (.json .null) rfl rfl
  cases this

end World
end LiveQuery
