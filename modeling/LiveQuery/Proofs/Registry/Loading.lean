import LiveQuery.Proofs.Registry.Delivery
import LiveQuery.Proofs.Registry.Fetching

/-!
# The flag of a query that loads

All fetches of a query share one flag: a fetch raises it when it begins and lowers it when it
settles, whoever else is still on the way. So it is up exactly if a request is on its way and none
of the query has been answered since the last one left (`Shows`), and it says whether a request is
on its way as long as there is never more than one (`TellsTrue`). `loading_iff` is both for every
reachable world.
-/

namespace LiveQuery

/-- A query loads exactly if it awaits an answer and none has come since its last request left. -/
def Ledger.Shows (l : Ledger) (vs : List FetchEvent) (s : Snapshot) : Prop :=
  s.loading = true ↔ l.awaited ≠ [] ∧ ∀ result, vs.getLast? ≠ some (.settled result)

/-- A query loads exactly if it awaits an answer. -/
def Ledger.TellsTrue (l : Ledger) (s : Snapshot) : Prop := s.loading = true ↔ l.awaited ≠ []

namespace Ledger

variable {l : Ledger} {q : Query} {vs : List FetchEvent}

theorem shows_blank (id : Nat) (client : Client) (endpoint : Endpoint) (filter : Filter)
    (options : QueryOptions) :
    blank.Shows [] (Query.fresh id client endpoint filter options).snapshot := by
  simp [Shows, blank, Query.fresh, Snapshot.blank]

theorem Matches.shows_book (h : l.Matches q) (hs : l.Shows vs q.snapshot) (m : Move) :
    (l.book m q).Shows (vs ++ (m.event? q).toList) (q.move m).snapshot := by
  have hbook := h.book_cases m
  match hv : m.event? q with
  | none =>
    rw [hv] at hbook
    rw [hbook, Option.toList_none, List.append_nil, Shows, Query.snapshot_move_of_none hv]
    exact hs
  | some .begun =>
    rw [hv] at hbook
    obtain ⟨r, hr⟩ := hbook
    rw [hr, Option.toList_some, Shows, Query.loading_move hv]
    simp [FetchEvent.loading, sent]
  | some (.settled result) =>
    rw [Option.toList_some, Shows, Query.loading_move hv]
    simp [FetchEvent.loading]

/-- Where one request at most is on its way, none is after an answer. -/
theorem Matches.tellsTrue_book (h : l.Matches q) (hone : l.awaited.length ≤ 1)
    (ht : l.TellsTrue q.snapshot) (m : Move) : (l.book m q).TellsTrue (q.move m).snapshot := by
  have hbook := h.book_cases m
  match hv : m.event? q with
  | none =>
    rw [hv] at hbook
    rw [hbook, TellsTrue, Query.snapshot_move_of_none hv]
    exact ht
  | some .begun =>
    rw [hv] at hbook
    obtain ⟨r, hr⟩ := hbook
    rw [hr, TellsTrue, Query.loading_move hv]
    simp [FetchEvent.loading, sent]
  | some (.settled result) =>
    rw [hv] at hbook
    obtain ⟨r, hmem, hr⟩ := hbook
    have hnil : l.awaited.erase r = [] := by
      rw [List.eq_nil_iff_length_eq_zero, List.length_erase_of_mem hmem]
      omega
    rw [hr, TellsTrue, Query.loading_move hv]
    simp [FetchEvent.loading, hnil]

end Ledger

namespace Query

variable {q : Query} {l : Ledger} {vs : List FetchEvent}

theorem shows_ledger (h : l.Matches q) (hs : l.Shows vs q.snapshot) (ms : List Move) :
    (q.ledger ms l).Shows (vs ++ q.events ms) (q.run ms).snapshot := by
  induction ms generalizing q l vs with
  | nil => simpa [ledger, events] using hs
  | cons m ms ih =>
    rw [ledger, events, ← List.append_assoc]
    exact ih (h.book m) (h.shows_book hs m)

end Query

namespace World

/-- Whatever else is under way, a query that a run makes loads exactly if a request of it is on its
way and none has been answered since the last one left. -/
theorem shows_ledger {ss : List Step} {h : Handle} {w : World} {q : Query}
    (hn : w.query? h = none) (hq : (w.run ss).query? h = some q) :
    (w.ledger h ss .blank).Shows (w.events h ss) q.snapshot := by
  induction ss generalizing w with
  | nil => exact absurd (hn.symm.trans hq) (by simp)
  | cons s ss ih =>
    rw [ledger, hn, events, event?_of_none hn, Option.toList_none, List.nil_append]
    cases hs : (w.step s).query? h with
    | none => exact ih hs hq
    | some q₀ =>
      obtain ⟨id, e, f, o, rfl⟩ := query?_step_of_none hn hs
      rw [run_cons, query?_run hs, Option.some.injEq] at hq
      rw [← hq, ledger_of_query? hs, events_of_query? hs]
      exact Query.shows_ledger (Ledger.matches_fresh id _ e f o) (Ledger.shows_blank id _ e f o) _

/-- A query that is not made yet awaits nothing, and one that is made tells true. -/
structure IsTrue (h : Handle) (w : World) (l : Ledger) : Prop where
  unmade : w.query? h = none → l = .blank
  made : ∀ q, w.query? h = some q → l.Matches q ∧ l.TellsTrue q.snapshot

theorem IsTrue.step {h : Handle} {w : World} {l : Ledger} (ht : IsTrue h w l)
    (hone : l.awaited.length ≤ 1) (s : Step) :
    IsTrue h (w.step s)
      (match w.query? h with
      | some q => q.ledger (w.moves h s) l
      | none => l) := by
  cases hq : w.query? h with
  | none =>
    obtain rfl : l = .blank := ht.unmade hq
    refine ⟨fun _ => rfl, fun q hs => ?_⟩
    obtain ⟨id, e, f, o, rfl⟩ := query?_step_of_none hq hs
    exact ⟨Ledger.matches_fresh id _ e f o, by
      simp [Ledger.TellsTrue, Ledger.blank, Query.fresh, Snapshot.blank]⟩
  | some q =>
    obtain ⟨hm, htrue⟩ := ht.made q hq
    have hstep := query?_step (s := s) hq
    refine ⟨fun hn => absurd (hn.symm.trans hstep) (by simp), fun q' hq' => ?_⟩
    cases hstep.symm.trans hq'
    rcases moves_eq_nil_or h s w with hmoves | ⟨m, hmoves⟩
    · rw [hmoves]
      exact ⟨hm, htrue⟩
    · rw [hmoves]
      exact ⟨hm.book m, hm.tellsTrue_book hone htrue m⟩

theorem IsTrue.run {h : Handle} {w : World} {l : Ledger} (ht : IsTrue h w l) (ss : List Step)
    (hone : ∀ n, (w.ledger h (ss.take n) l).awaited.length ≤ 1) :
    IsTrue h (w.run ss) (w.ledger h ss l) := by
  induction ss generalizing w l with
  | nil => exact ht
  | cons s ss ih => exact ih (ht.step (hone 0) s) fun n => hone (n + 1)

theorem isTrue_start (h : Handle) (client : Client) : IsTrue h (start client) .blank where
  unmade _ := rfl
  made q hq := by simp [start, query?, Registry.empty] at hq

/-- In every reachable world a query loads exactly if at least one request of it is on its way and
none has been answered since the last one left; and in a run in which there is never more than one
on its way, it loads exactly if there is one. -/
theorem loading_iff {client : Client} {ss : List Step} {h : Handle} {q : Query}
    (hq : ((start client).run ss).query? h = some q) :
    let awaited (ss : List Step) := ((start client).ledger h ss .blank).awaited
    (q.snapshot.loading = true ↔
      awaited ss ≠ [] ∧
        ∀ result, ((start client).events h ss).getLast? ≠ some (.settled result)) ∧
    ((∀ n, (awaited (ss.take n)).length ≤ 1) → (q.snapshot.loading = true ↔ awaited ss ≠ [])) :=
  ⟨shows_ledger rfl hq, fun hone => (((isTrue_start h client).run ss hone).made q hq).2⟩

/-- A query that does not poll is made, its first fetch begins, and its maker fetches as well; then
the maker has an answer. -/
def fetchedTwice : List Step :=
  [.call (.make 0 (some EndpointName.flow.endpoint) .empty ⟨0⟩ true), .part 0, .move 0 .beginDirect,
    .move 0 .beginDirect, .move 0 (.settleDirect (.ok (.json .null)) ⟨0, 0⟩)]

/-- The query loads while its first fetch is alone; with the second one answered it does not, as an
answer has come last. -/
theorem loading_iff_fetched_twice :
    (∃ q, ((start default).run (fetchedTwice.take 3)).query? 0 = some q ∧
      q.snapshot.loading = true) ∧
    ∃ q, ((start default).run fetchedTwice).query? 0 = some q ∧ q.snapshot.loading = false := by
  have hq : ((start default).run (fetchedTwice.take 3)).query? 0 = some _ := rfl
  have hq' : ((start default).run fetchedTwice).query? 0 = some _ := rfl
  refine ⟨⟨_, hq, (loading_iff hq).2 ?_ |>.mpr ?_⟩, ⟨_, hq', ?_⟩⟩
  · intro n
    match n with
    | 0 | 1 | 2 => decide
    | n + 3 =>
      rw [List.take_of_length_le (Nat.le_add_left 3 n)]
      decide
  · decide
  · rw [← Bool.not_eq_true, (loading_iff hq').1]
    rintro ⟨-, hlast⟩
    exact hlast _ rfl

/-- A query of which two requests are on their way does not load any more when one has been
answered, so that the flag does not always say whether a request is on its way. -/
theorem quiet_while_awaiting :
    ¬ ∀ (client : Client) (ss : List Step) (h : Handle) (q : Query),
      ((start client).run ss).query? h = some q →
      (q.snapshot.loading = true ↔ ((start client).ledger h ss .blank).awaited ≠ []) := by
  intro htrue
  have hloading := (htrue default fetchedTwice 0 _ rfl).mpr (by decide)
  cases hloading

end World
end LiveQuery
