import LiveQuery.Proofs.Query.Outcome
import LiveQuery.Proofs.Query.Timer

/-!
# Requests on their way and outcomes that have come

A `Ledger` is kept on the far side of a query: who has sent a request that is not answered yet, and
which answers have been delivered. It looks at the query only to see a request leave; an answer is
delivered to whoever awaits one, whatever has happened to the query meanwhile. `Matches` says that
the query waits for what is on its way, so that no answer passes it by, and `Reports` that what it
knows is what the answers delivered so far make of it. Every move keeps both.
-/

namespace LiveQuery

/-- Who sends the requests of a query. -/
inductive Requester where
  /-- Somebody who holds the query and fetches. -/
  | holder
  | loop (i : Nat)
  deriving DecidableEq, Repr

/-- What has gone over the wire for a query. -/
structure Ledger where
  /-- The senders of the requests on their way, one for each request. -/
  awaited : List Requester
  /-- The answers delivered so far, the first one first. -/
  answered : List (Except FetchError Response)

namespace Move

/-- The answer that a move brings, and who it is for. -/
def answer? : Move → Option (Requester × Except FetchError Response)
  | .settleDirect result _ => some (.holder, result)
  | .settleLoop i result _ _ => some (.loop i, result)
  | _ => none

/-- Who sends a request in a move, if one is sent. -/
def sender? : Move → Option Requester
  | .beginDirect => some .holder
  | .beginLoop i | .wake i _ => some (.loop i)
  | _ => none

end Move

namespace Ledger

/-- Nothing has been sent. -/
def blank : Ledger := ⟨[], []⟩

/-- A request leaves. -/
def sent (r : Requester) (l : Ledger) : Ledger := { l with awaited := r :: l.awaited }

/-- An answer comes: it is delivered if somebody awaits it. -/
def came (r : Requester) (result : Except FetchError Response) (l : Ledger) : Ledger :=
  if r ∈ l.awaited then ⟨l.awaited.erase r, l.answered ++ [result]⟩ else l

/-- The ledger after a move. -/
def book (m : Move) (q : Query) (l : Ledger) : Ledger :=
  match m.answer? with
  | some (r, result) => l.came r result
  | none =>
    match m.event? q, m.sender? with
    | some .begun, some r => l.sent r
    | _, _ => l

/-- The query waits for every request on its way, and for no other. -/
structure Matches (l : Ledger) (q : Query) : Prop where
  holders : l.awaited.count .holder = q.direct
  loops : ∀ i, l.awaited.count (.loop i) = if q.phase i = .fetching then 1 else 0

end Ledger

/-- The last response among the answers. -/
def lastSuccess? (results : List (Except FetchError Response)) : Option Response :=
  (results.filterMap Except.toOption).getLast?

/-- What is known is what the answers make of it. -/
structure Snapshot.Reports (s : Snapshot) (results : List (Except FetchError Response)) : Prop where
  count : s.fetchCount = results.length
  fetched : s.fetchedAt.isSome = true ↔ 0 < results.length
  response : s.response = lastSuccess? results
  outcome : 0 < results.length → s.loading = false →
    s.error.isSome = true ∨ s.response.isSome = true

namespace Query

theorem phase_setPhase_of_ne {q : Query} {i j : Nat} (h : i ≠ j) (p : Phase) :
    (q.setPhase i p).phase j = q.phase j := by
  rw [phase, getElem?_loops_setPhase, if_neg h, phase]

theorem direct_cancelTimer (q : Query) : q.cancelTimer.direct = q.direct := by
  unfold cancelTimer
  split <;> rfl

theorem direct_start (q : Query) : q.start.1.direct = q.direct := by
  cases hp : q.options.isPolling with
  | true => simp only [start_of_isPolling hp, direct_cancelTimer]
  | false => simp only [start_of_not_isPolling hp, direct_cancelTimer]

/-- A loop that is decided on has sent nothing yet. -/
theorem phase_start_fetching (q : Query) (i : Nat) :
    q.start.1.phase i = .fetching ↔ q.phase i = .fetching := by
  have hstop : q.phase i = q.cancelTimer.phase i := (phase_stop q i).symm
  cases hp : q.options.isPolling with
  | false => rw [start_of_not_isPolling hp, hstop]
  | true =>
    rw [start_of_isPolling hp, hstop]
    simp only [phase]
    by_cases hi : i < q.cancelTimer.loops.length
    · rw [List.getElem?_append_left hi]
    · have hle : q.cancelTimer.loops.length ≤ i := Nat.not_lt.mp hi
      rw [List.getElem?_append_right hle, List.getElem?_eq_none hle]
      cases i - q.cancelTimer.loops.length <;> simp

end Query

namespace Ledger

variable {l : Ledger} {q q' : Query} {m : Move}

open Query

theorem matches_fresh (id : Nat) (client : Client) (endpoint : Endpoint) (filter : Filter)
    (options : QueryOptions) : blank.Matches (.fresh id client endpoint filter options) :=
  ⟨rfl, fun _ => rfl⟩

theorem Matches.mem_holder (h : l.Matches q) : .holder ∈ l.awaited ↔ q.direct ≠ 0 := by
  rw [← h.holders, ← List.count_pos_iff, Nat.pos_iff_ne_zero]

theorem Matches.mem_loop (h : l.Matches q) (i : Nat) :
    .loop i ∈ l.awaited ↔ q.phase i = .fetching := by
  rw [← List.count_pos_iff, h.loops]
  split <;> simp [*]

/-- An answer changes what the query knows exactly if somebody awaits it. -/
theorem Matches.event?_of_answer (h : l.Matches q) {r : Requester}
    {result : Except FetchError Response} (hm : m.answer? = some (r, result)) :
    m.event? q = if r ∈ l.awaited then some (.settled result) else none := by
  cases m with
  | settleDirect _ at_ =>
    cases hm
    simp only [Move.event?, h.mem_holder, ne_eq, ite_not]
  | settleLoop i _ at_ now =>
    cases hm
    simp only [Move.event?, h.mem_loop]
  | start | spawn | stop | beginDirect | beginLoop | wake => cases hm

/-- A move that brings no answer is no end of a fetch. -/
theorem event?_of_no_answer (hm : m.answer? = none) (q : Query) :
    m.event? q = none ∨ m.event? q = some .begun := by
  cases m with
  | start | spawn | stop => exact .inl rfl
  | beginDirect => exact .inr rfl
  | beginLoop i =>
    simp only [Move.event?]
    split
    · exact .inr rfl
    · exact .inl rfl
  | wake i now =>
    simp only [Move.event?]
    split
    · split
      · exact .inl rfl
      · exact .inr rfl
    · exact .inl rfl
  | settleDirect | settleLoop => cases hm

/-- A fetch that begins has somebody who sends its request. -/
theorem sender?_of_begun (hv : m.event? q = some .begun) : ∃ r, m.sender? = some r := by
  cases m with
  | beginDirect | beginLoop | wake => exact ⟨_, rfl⟩
  | start | spawn | stop => cases hv
  | settleDirect | settleLoop =>
    simp only [Move.event?] at hv
    split at hv <;> cases hv

/-- A query in which as many fetches are on their way, of the same senders. -/
theorem Matches.congr (h : l.Matches q) (hd : q'.direct = q.direct)
    (hp : ∀ i, q'.phase i = .fetching ↔ q.phase i = .fetching) : l.Matches q' :=
  ⟨hd ▸ h.holders, fun i => by simp only [h.loops, hp]⟩

/-- A loop that neither sends a request nor has one answered. -/
theorem Matches.setPhase (h : l.Matches q) {i : Nat} {p : Phase} (hp : p ≠ .fetching)
    (hne : q.phase i ≠ .fetching) (hi : q.phase i ≠ .ended) : l.Matches (q.setPhase i p) := by
  refine h.congr rfl fun j => ?_
  by_cases hij : i = j
  · subst hij
    rw [phase_setPhase_self hi]
    exact iff_of_false hp hne
  · rw [phase_setPhase_of_ne hij]

/-- A loop that sends a request. -/
theorem Matches.sent_loop (h : l.Matches q) {i : Nat} {q₁ : Query} (hd : q₁.direct = q.direct)
    (hl : q₁.loops = q.loops) (hne : q.phase i ≠ .fetching) (hi : q.phase i ≠ .ended) :
    (l.sent (.loop i)).Matches (q₁.setPhase i .fetching) := by
  have hphase : ∀ j, q₁.phase j = q.phase j := fun j => by rw [phase, phase, hl]
  constructor
  · have : (q₁.setPhase i .fetching).direct = q₁.direct := rfl
    rw [this, hd, ← h.holders]
    exact List.count_cons_of_ne (by simp)
  · intro j
    by_cases hij : i = j
    · subst hij
      rw [phase_setPhase_self (hphase i ▸ hi), if_pos rfl, sent, List.count_cons_self, h.loops,
        if_neg hne]
    · rw [phase_setPhase_of_ne hij, hphase, ← h.loops]
      exact List.count_cons_of_ne (by simp [hij])

/-- A loop whose request is answered. -/
theorem Matches.came_loop (h : l.Matches q) {i : Nat} {q₁ : Query} (hd : q₁.direct = q.direct)
    (hl : q₁.loops = q.loops) (hi : q.phase i = .fetching) (result : Except FetchError Response)
    (due : Nat) : (l.came (.loop i) result).Matches (q₁.setPhase i (.waiting due)) := by
  have hphase : ∀ j, q₁.phase j = q.phase j := fun j => by rw [phase, phase, hl]
  have hne : q₁.phase i ≠ .ended := by simp [hphase, hi]
  rw [came, if_pos ((h.mem_loop i).mpr hi)]
  constructor
  · have : (q₁.setPhase i (.waiting due)).direct = q₁.direct := rfl
    rw [this, hd, ← h.holders]
    exact List.count_erase_of_ne (by simp)
  · intro j
    by_cases hij : i = j
    · subst hij
      rw [phase_setPhase_self hne, if_neg (by simp), List.count_erase_self, h.loops, if_pos hi]
    · rw [phase_setPhase_of_ne hij, hphase, ← h.loops]
      exact List.count_erase_of_ne (by simp [Ne.symm hij])

/-- The query waits for what is on its way, whatever it does. -/
theorem Matches.book (h : l.Matches q) (m : Move) : (l.book m q).Matches (q.move m) := by
  cases m with
  | start => exact h.congr (direct_start q) (phase_start_fetching q)
  | stop => exact h.congr (direct_cancelTimer q) fun i => by rw [phase_stop]
  | spawn i =>
    simp only [Ledger.book, Move.answer?, Move.event?, Query.move, Query.spawn]
    split
    · rename_i hi
      exact h.setPhase (by simp) (by simp [hi]) (by simp [hi])
    · exact h
  | beginDirect =>
    refine ⟨?_, fun i => ?_⟩
    · show (l.sent .holder).awaited.count .holder = q.direct + 1
      rw [sent, List.count_cons_self, h.holders]
    · show (l.sent .holder).awaited.count (.loop i) = if q.phase i = .fetching then 1 else 0
      rw [sent, List.count_cons_of_ne (by simp), h.loops]
  | settleDirect result at_ =>
    simp only [Ledger.book, Move.answer?, Query.move, Query.settleDirect, came, h.mem_holder]
    by_cases hq : q.direct = 0
    · simp only [hq, ne_eq, not_true_eq_false, if_false, if_true]
      exact h
    · simp only [hq, ne_eq, not_false_eq_true, if_false, if_true]
      refine ⟨?_, fun i => ?_⟩
      · rw [List.count_erase_self, h.holders]
      · show _ = if q.phase i = .fetching then 1 else 0
        rw [List.count_erase_of_ne (by simp), h.loops]
  | beginLoop i =>
    simp only [Ledger.book, Move.answer?, Move.event?, Move.sender?, Query.move, Query.beginLoop]
    by_cases hi : q.phase i = .spawned
    · simp only [hi, if_true]
      exact h.sent_loop rfl rfl (by simp [hi]) (by simp [hi])
    · simp only [if_neg hi]
      exact h
  | settleLoop i result at_ now =>
    simp only [Ledger.book, Move.answer?, Query.move, Query.settleLoop]
    by_cases hi : q.phase i = .fetching
    · simp only [hi]
      have hd : (q.settleFetch result at_).direct = q.direct := rfl
      have hl : (q.settleFetch result at_).loops = q.loops := rfl
      exact h.came_loop hd hl hi result _
    · rw [came, if_neg (mt (h.mem_loop i).mp hi)]
      split
      · contradiction
      · exact h
  | wake i now =>
    simp only [Ledger.book, Move.answer?, Move.event?, Move.sender?, Query.move, Query.wake]
    cases hi : q.phase i with
    | waiting due =>
      by_cases hc : q.isCancelled i = true
      · simp only [hc, true_or, if_true]
        exact h.setPhase (by simp) (by simp [hi]) (by simp [hi])
      · by_cases hd : due ≤ now
        · simp only [hc, hd, Nat.not_lt.mpr hd, or_false, if_true]
          exact h.sent_loop rfl rfl (by simp [hi]) (by simp [hi])
        · simp only [hc, hd, Nat.lt_of_not_le hd, or_true, if_false, if_true]
          exact h
    | pending | spawned | fetching | ended => exact h

/-- What a move writes down is what happens to a fetch in it: a request leaves, or one that was on
its way is answered. -/
theorem Matches.book_cases (h : l.Matches q) (m : Move) :
    match m.event? q with
    | none => l.book m q = l
    | some .begun => ∃ r, l.book m q = l.sent r
    | some (.settled result) =>
      ∃ r ∈ l.awaited, l.book m q = ⟨l.awaited.erase r, l.answered ++ [result]⟩ := by
  cases ha : m.answer? with
  | some answer =>
    obtain ⟨r, result⟩ := answer
    rw [h.event?_of_answer ha]
    simp only [Ledger.book, ha, came]
    by_cases hmem : r ∈ l.awaited
    · simp only [if_pos hmem]
      exact ⟨r, hmem, rfl⟩
    · simp only [if_neg hmem]
  | none =>
    rcases event?_of_no_answer ha q with hv | hv
    · simp only [Ledger.book, ha, hv]
    · obtain ⟨r, hr⟩ := sender?_of_begun hv
      simp only [Ledger.book, ha, hv, hr]
      exact ⟨r, rfl⟩

end Ledger

/-! ## What is known of the answers -/

namespace Snapshot

variable {s : Snapshot} {results : List (Except FetchError Response)}

theorem reports_blank : Snapshot.blank.Reports [] :=
  ⟨rfl, by simp [blank], rfl, fun h => absurd h (Nat.lt_irrefl 0)⟩

theorem lastSuccess?_append (result : Except FetchError Response) :
    lastSuccess? (results ++ [result]) = result.toOption.or (lastSuccess? results) := by
  unfold lastSuccess?
  cases result with
  | ok r => simp [Except.toOption]
  | error e => simp [Except.toOption]

end Snapshot

namespace Query

variable {q : Query} {results : List (Except FetchError Response)}

theorem reports_beginFetch (h : q.snapshot.Reports results) :
    q.beginFetch.snapshot.Reports results where
  count := h.count
  fetched := h.fetched
  response := h.response
  outcome _ hloading := Bool.noConfusion hloading

theorem reports_settleFetch (h : q.snapshot.Reports results)
    (result : Except FetchError Response) (at_ : Timestamp) :
    (q.settleFetch result at_).snapshot.Reports (results ++ [result]) := by
  have hcount : (q.settleFetch result at_).snapshot.fetchCount = q.snapshot.fetchCount + 1 := by
    cases result <;> rfl
  have hfetched : (q.settleFetch result at_).snapshot.fetchedAt = some at_ := by
    cases result <;> rfl
  refine ⟨?_, ?_, ?_, ?_⟩
  · rw [hcount, h.count, List.length_append, List.length_singleton]
  · simp [hfetched]
  · rw [Snapshot.lastSuccess?_append, ← h.response]
    cases result <;> rfl
  · intro _ _
    cases result with
    | ok r => exact .inr rfl
    | error e => exact .inl rfl

end Query

namespace Ledger

variable {l : Ledger} {q : Query}

/-- What the query knows is what the answers delivered so far make of it, whatever it does. -/
theorem Matches.reports_book (h : l.Matches q) (hr : q.snapshot.Reports l.answered) (m : Move) :
    (q.move m).snapshot.Reports (l.book m q).answered := by
  have hsnapshot := q.snapshot_move m
  have hbook := h.book_cases m
  match hv : m.event? q with
  | none =>
    rw [hv] at hsnapshot hbook
    rw [hbook, hsnapshot]
    exact hr
  | some .begun =>
    rw [hv] at hsnapshot hbook
    obtain ⟨r, hsent⟩ := hbook
    rw [hsent, hsnapshot]
    exact Query.reports_beginFetch hr
  | some (.settled result) =>
    rw [hv] at hsnapshot hbook
    obtain ⟨r, -, hcame⟩ := hbook
    obtain ⟨at_, hat⟩ := hsnapshot
    rw [hcame, hat]
    exact Query.reports_settleFetch hr result at_

end Ledger

/-! ## Runs -/

namespace Query

/-- The ledger after a list of moves. -/
def ledger : List Move → Query → Ledger → Ledger
  | [], _, l => l
  | m :: ms, q, l => ledger ms (q.move m) (l.book m q)

theorem ledger_append (ms ns : List Move) (q : Query) (l : Ledger) :
    q.ledger (ms ++ ns) l = (q.run ms).ledger ns (q.ledger ms l) := by
  induction ms generalizing q l with
  | nil => rfl
  | cons m ms ih => exact ih (q.move m) (l.book m q)

theorem matches_ledger {q : Query} {l : Ledger} (h : l.Matches q)
    (hr : q.snapshot.Reports l.answered) (ms : List Move) :
    (q.ledger ms l).Matches (q.run ms) ∧
      (q.run ms).snapshot.Reports (q.ledger ms l).answered := by
  induction ms generalizing q l with
  | nil => exact ⟨h, hr⟩
  | cons m ms ih => exact ih (h.book m) (h.reports_book hr m)

end Query
end LiveQuery
