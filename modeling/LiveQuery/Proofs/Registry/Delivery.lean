import LiveQuery.Proofs.Query.Ledger
import LiveQuery.Proofs.Registry.World

/-!
# Answers in a world

Whatever runs at the same time, every answer to a request of a query is taken in, and once: starting
and stopping, disposing of the query and releasing it leave its requests on their way and what they
bring. What the query knows is what the answers delivered so far make of it.
-/

namespace LiveQuery
namespace World

/-- What goes over the wire for a query in a run: a query that is not made yet sends nothing and
awaits nothing. -/
def ledger (h : Handle) : List Step → World → Ledger → Ledger
  | [], _, l => l
  | s :: ss, w, l =>
    ledger h ss (w.step s)
      (match w.query? h with
      | some q => q.ledger (w.moves h s) l
      | none => l)

theorem ledger_of_query? {ss : List Step} {h : Handle} {w : World} {q : Query}
    (hq : w.query? h = some q) (l : Ledger) : w.ledger h ss l = q.ledger (w.history h ss) l := by
  induction ss generalizing w q l with
  | nil => rfl
  | cons s ss ih =>
    rw [ledger, history_cons, Query.ledger_append, hq]
    exact ih (query?_step hq) _

/-- A query that a run makes waits for what is on its way in the end, and knows what has been
answered. -/
theorem matches_ledger {ss : List Step} {h : Handle} {w : World} {q : Query}
    (hn : w.query? h = none) (hq : (w.run ss).query? h = some q) :
    (w.ledger h ss .blank).Matches q ∧
      q.snapshot.Reports (w.ledger h ss .blank).answered := by
  induction ss generalizing w with
  | nil => exact absurd (hn.symm.trans hq) (by simp)
  | cons s ss ih =>
    rw [ledger, hn]
    cases hs : (w.step s).query? h with
    | none => exact ih hs hq
    | some q₀ =>
      obtain ⟨id, e, f, o, rfl⟩ := query?_step_of_none hn hs
      rw [run_cons, query?_run hs, Option.some.injEq] at hq
      rw [← hq, ledger_of_query? hs]
      exact Query.matches_ledger (Ledger.matches_fresh id _ e f o) Snapshot.reports_blank _

/-- What a query knows, once it is made, is what the answers to its requests have made of it. -/
def Knows (h : Handle) (w : World) : Prop :=
  ∀ q, w.query? h = some q → ∃ l : Ledger, l.Matches q ∧ q.snapshot.Reports l.answered

theorem Knows.step {h : Handle} {w : World} (hk : w.Knows h) (s : Step) : (w.step s).Knows h := by
  intro q hq
  cases hw : w.query? h with
  | none =>
    obtain ⟨id, e, f, o, rfl⟩ := query?_step_of_none hw hq
    exact ⟨.blank, Ledger.matches_fresh id _ e f o, Snapshot.reports_blank⟩
  | some q₀ =>
    obtain ⟨l, hl, hr⟩ := hk q₀ hw
    cases hq.symm.trans (query?_step hw)
    exact ⟨_, Query.matches_ledger hl hr _⟩

theorem knows_start (h : Handle) (client : Client) : (start client).Knows h := by
  intro q hq
  simp [start, query?, Registry.empty] at hq

/-- A query that knows an answer and does not load knows an error or a response. -/
theorem Knows.outcome {h : Handle} {w : World} (hk : w.Knows h) {q : Query}
    (hq : w.query? h = some q) (hcount : 0 < q.snapshot.fetchCount)
    (hloading : q.snapshot.loading = false) :
    q.snapshot.error.isSome = true ∨ q.snapshot.response.isSome = true := by
  obtain ⟨l, -, hr⟩ := hk q hq
  exact hr.outcome (hr.count ▸ hcount) hloading

/-- Whatever else is under way, a query counts the answers that have been delivered to its requests,
it has a time of the last one exactly if there is one, its response is that of the last success, and
once an answer has come and none is awaited it has an error or a response. -/
theorem counts_every_answer {client : Client} {ss : List Step} {h : Handle} {q : Query}
    (hq : ((start client).run ss).query? h = some q) :
    q.snapshot.fetchCount = ((start client).ledger h ss .blank).answered.length ∧
      (q.snapshot.fetchedAt.isSome = true ↔ 0 < q.snapshot.fetchCount) ∧
      q.snapshot.response = lastSuccess? ((start client).ledger h ss .blank).answered ∧
      (0 < q.snapshot.fetchCount → q.snapshot.loading = false →
        q.snapshot.error.isSome = true ∨ q.snapshot.response.isSome = true) := by
  obtain ⟨-, hreports⟩ := matches_ledger (w := start client) rfl hq
  have hcount := hreports.count
  have hfetched := hreports.fetched
  have houtcome := hreports.outcome
  rw [← hcount] at hfetched houtcome
  exact ⟨hcount, hfetched, hreports.response, houtcome⟩

/-- A query that polls is made; its loop and its maker send a request each, and it is stopped and
disposed of. Then the loop has its answer, and the maker, and the loop looks about and ends. -/
def answeredLate : List Step :=
  [.call (.create (some EndpointName.flow.endpoint) .empty ⟨1000⟩ true), .part 0, .part 0, .part 0,
    .part 0, .part 0, .move 0 (.beginLoop 0), .move 0 .beginDirect, .call (.dispose 0), .part 1,
    .part 1, .move 0 (.settleLoop 0 (.ok (.json .null)) ⟨0, 0⟩ 0),
    .move 0 (.settleDirect (.error (.timeout 1)) ⟨1, 0⟩), .move 0 (.wake 0 0)]

/-- Both answers are counted, and each has left its mark. -/
theorem counts_every_answer_late :
    ∃ q, ((start default).run answeredLate).query? 0 = some q ∧ q.snapshot.fetchCount = 2 ∧
      q.snapshot.response = some (.json .null) ∧
      (q.snapshot.error.isSome = true ∨ q.snapshot.response.isSome = true) := by
  have hq : ((start default).run answeredLate).query? 0 = some _ := rfl
  obtain ⟨hcount, -, hresponse, houtcome⟩ := counts_every_answer hq
  exact ⟨_, hq, hcount, hresponse, houtcome (by decide) rfl⟩

end World
end LiveQuery
