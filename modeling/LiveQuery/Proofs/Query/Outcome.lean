import LiveQuery.Proofs.Query.Move

/-!
# What becomes of the fetches of a query

A fetch begins and later settles, and any number of fetches of one query may overlap. A move is a
`FetchEvent` or none, and `knows_move` says what an event does to what the query knows: the error
goes when a fetch begins, not when one succeeds. Hence the error of a query is that of a failure after
which nothing but successes have come (`error_run_iff`).
-/

namespace LiveQuery

/-- What happens to a fetch. -/
inductive FetchEvent where
  | begun
  | settled (result : Except FetchError Response)

/-- Whether the event is that a fetch succeeds. -/
def FetchEvent.IsSuccess (v : FetchEvent) : Prop := ∃ r, v = .settled (.ok r)

/-- What a move of a query does to a fetch of it. -/
def Move.event? (m : Move) (q : Query) : Option FetchEvent :=
  match m with
  | .start | .spawn _ | .stop => none
  | .beginDirect => some .begun
  | .settleDirect result _ => if q.direct = 0 then none else some (.settled result)
  | .beginLoop i => if q.phase i = .spawned then some .begun else none
  | .settleLoop i result _ _ => if q.phase i = .fetching then some (.settled result) else none
  | .wake i now =>
    match q.phase i with
    | .waiting due => if q.isCancelled i ∨ now < due then none else some .begun
    | _ => none

/-- The error after an event. -/
def FetchEvent.error (v : FetchEvent) (before : Option FetchError) : Option FetchError :=
  match v with
  | .begun => none
  | .settled (.ok _) => before
  | .settled (.error e) => some e

/-- Whether a query loads after an event. -/
def FetchEvent.loading : FetchEvent → Bool
  | .begun => true
  | .settled _ => false

/-- The response after an event. -/
def FetchEvent.response (v : FetchEvent) (before : Option Response) : Option Response :=
  match v with
  | .begun | .settled (.error _) => before
  | .settled (.ok r) => some r

namespace Query

theorem snapshot_cancelTimer (q : Query) : q.cancelTimer.snapshot = q.snapshot := by
  simp only [cancelTimer]
  split <;> rfl

theorem snapshot_start (q : Query) : q.start.1.snapshot = q.snapshot := by
  cases hp : q.options.isPolling with
  | true => simp only [start_of_isPolling hp, snapshot_cancelTimer]
  | false => simp only [start_of_not_isPolling hp, snapshot_cancelTimer]

/-- A move changes what a query knows as its event says: a begin forgets the error, a success
replaces the response and a failure the error. -/
theorem snapshot_move (m : Move) (q : Query) :
    match m.event? q with
    | none => (q.move m).snapshot = q.snapshot
    | some .begun => (q.move m).snapshot = q.beginFetch.snapshot
    | some (.settled result) =>
      ∃ at_, (q.move m).snapshot = (q.settleFetch result at_).snapshot := by
  cases m with
  | start => exact snapshot_start q
  | stop => exact snapshot_cancelTimer q
  | spawn i =>
    simp only [Move.event?, move, spawn]
    split <;> rfl
  | beginDirect => rfl
  | settleDirect result at_ =>
    simp only [Move.event?, move, settleDirect]
    by_cases h : q.direct = 0
    · simp only [if_pos h]
    · simp only [if_neg h]
      exact ⟨at_, rfl⟩
  | beginLoop i =>
    simp only [Move.event?, move, beginLoop]
    by_cases h : q.phase i = .spawned
    · simp only [h, if_true]
      rfl
    · simp only [if_neg h]
  | settleLoop i result at_ now =>
    simp only [Move.event?, move, settleLoop]
    by_cases h : q.phase i = .fetching
    · simp only [h, if_true]
      exact ⟨at_, rfl⟩
    · simp only [if_neg h]
  | wake i now =>
    simp only [Move.event?, move, wake]
    cases h : q.phase i with
    | waiting due =>
      by_cases hc : q.isCancelled i = true
      · simp [hc, setPhase]
      · by_cases hd : due ≤ now
        · simp [hc, hd, Nat.not_lt.mpr hd, setPhase]
        · simp [hc, hd, Nat.lt_of_not_le hd]
    | pending | spawned | fetching | ended => rfl

theorem snapshot_move_of_none {m : Move} {q : Query} (h : m.event? q = none) :
    (q.move m).snapshot = q.snapshot := by
  have hmove := snapshot_move m q
  rw [h] at hmove
  exact hmove

/-- What a query knows of its fetches after an event. -/
theorem knows_move {m : Move} {q : Query} {v : FetchEvent} (h : m.event? q = some v) :
    (q.move m).snapshot.error = v.error q.snapshot.error ∧
      (q.move m).snapshot.response = v.response q.snapshot.response ∧
      (q.move m).snapshot.loading = v.loading := by
  have hmove := snapshot_move m q
  rw [h] at hmove
  match v, hmove with
  | .begun, hmove =>
    rw [hmove]
    exact ⟨rfl, rfl, rfl⟩
  | .settled (.ok r), ⟨at_, hmove⟩ =>
    rw [hmove]
    exact ⟨rfl, rfl, rfl⟩
  | .settled (.error e), ⟨at_, hmove⟩ =>
    rw [hmove]
    exact ⟨rfl, rfl, rfl⟩

theorem error_move {m : Move} {q : Query} {v : FetchEvent} (h : m.event? q = some v) :
    (q.move m).snapshot.error = v.error q.snapshot.error := (knows_move h).1

theorem response_move {m : Move} {q : Query} {v : FetchEvent} (h : m.event? q = some v) :
    (q.move m).snapshot.response = v.response q.snapshot.response := (knows_move h).2.1

theorem loading_move {m : Move} {q : Query} {v : FetchEvent} (h : m.event? q = some v) :
    (q.move m).snapshot.loading = v.loading := (knows_move h).2.2

/-! ## Runs -/

/-- What happens to the fetches of a query in a run. -/
def events : List Move → Query → List FetchEvent
  | [], _ => []
  | m :: ms, q => (m.event? q).toList ++ events ms (q.move m)

theorem events_append (ms ns : List Move) (q : Query) :
    q.events (ms ++ ns) = q.events ms ++ (q.run ms).events ns := by
  induction ms generalizing q with
  | nil => rfl
  | cons m ms ih => simp [events, ih]

/-- The events end in a failure and, after it, nothing but successes. -/
def EndsInFailure (e : FetchError) (vs : List FetchEvent) : Prop :=
  ∃ before after, vs = before ++ .settled (.error e) :: after ∧ ∀ v ∈ after, v.IsSuccess

theorem not_endsInFailure_nil (e : FetchError) : ¬ EndsInFailure e [] := by
  rintro ⟨before, after, h, -⟩
  simp at h

/-- Looking at the first of the events: what ends in a failure does so in the rest, or the first
event is that failure and all others are successes. -/
theorem endsInFailure_cons {e : FetchError} {v : FetchEvent} {vs : List FetchEvent} :
    EndsInFailure e (v :: vs) ↔
      EndsInFailure e vs ∨ v = .settled (.error e) ∧ ∀ u ∈ vs, u.IsSuccess := by
  constructor
  · rintro ⟨before, after, h, hs⟩
    cases before with
    | nil =>
      obtain ⟨rfl, rfl⟩ := List.cons.inj h
      exact .inr ⟨rfl, hs⟩
    | cons u us =>
      obtain ⟨-, rfl⟩ := List.cons.inj h
      exact .inl ⟨us, after, rfl, hs⟩
  · rintro (⟨before, after, rfl, hs⟩ | ⟨rfl, hs⟩)
    · exact ⟨v :: before, after, rfl, hs⟩
    · exact ⟨[], vs, rfl, hs⟩

/-- The error after a run is that of a failure that only successes have followed, or the one from
before the run if nothing but successes have come in it. -/
theorem error_run (ms : List Move) (q : Query) (e : FetchError) :
    (q.run ms).snapshot.error = some e ↔
      EndsInFailure e (q.events ms) ∨
        q.snapshot.error = some e ∧ ∀ v ∈ q.events ms, v.IsSuccess := by
  induction ms generalizing q with
  | nil => simp [events, not_endsInFailure_nil]
  | cons m ms ih =>
    rw [run_cons, ih, events]
    cases h : m.event? q with
    | none => rw [snapshot_move_of_none h, Option.toList_none, List.nil_append]
    | some v =>
      rw [error_move h, Option.toList_some, List.singleton_append, endsInFailure_cons]
      match v with
      | .begun => simp [FetchEvent.error, FetchEvent.IsSuccess]
      | .settled (.ok r) => simp [FetchEvent.error, FetchEvent.IsSuccess]
      | .settled (.error e') => simp [FetchEvent.error, FetchEvent.IsSuccess]

/-- The error of a query is that of a failure after which nothing but successes have come. -/
theorem error_run_iff {q : Query} (hq : q.snapshot.error = none) (ms : List Move)
    (e : FetchError) : (q.run ms).snapshot.error = some e ↔ EndsInFailure e (q.events ms) := by
  rw [error_run, hq]
  simp

end Query
end LiveQuery
