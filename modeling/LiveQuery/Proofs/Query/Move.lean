import LiveQuery.Query.Basic

/-!
# Moves of a query

Whatever runs at the same time, a query changes in moves that are never split. The calls of any
number of holders and the turns of the tasks of the query, in whatever order they come, are a list
of moves, and `Query.run` plays it. A move that does not apply where it is made changes nothing, so
no list has to be ruled out.

`move_cases` says once what a move other than a start or a stop can do. For a single loop this is
the relation `LoopStep`: `loopStep_move` and `loop_of_move` are its two directions, and whatever
holds of every loop in every run follows by cases on the step.
-/

namespace LiveQuery

/-- What happens to a query in one piece. -/
inductive Move where
  /-- The loop that counts is cancelled and, if the query polls, a new one decided on. -/
  | start
  /-- The task of a loop that has been decided on is made. -/
  | spawn (i : Nat)
  /-- The loop that counts is cancelled. -/
  | stop
  | beginDirect
  | settleDirect (result : Except FetchError Response) (at_ : Timestamp)
  | beginLoop (i : Nat)
  | settleLoop (i : Nat) (result : Except FetchError Response) (at_ : Timestamp) (now : Nat)
  | wake (i : Nat) (now : Nat)

/-- The moves that swap the timer; all others leave it and the tokens of all loops alone. -/
def Move.swaps : Move → Bool
  | .start | .stop => true
  | _ => false

/-- What one move can do to a loop. -/
inductive LoopStep : Loop → Loop → Prop
  | stay (l : Loop) : LoopStep l l
  | cancel (p : Phase) (c : Bool) : LoopStep ⟨p, c⟩ ⟨p, true⟩
  | spawn (c : Bool) : LoopStep ⟨.pending, c⟩ ⟨.spawned, c⟩
  | first (c : Bool) : LoopStep ⟨.spawned, c⟩ ⟨.fetching, c⟩
  | settle (c : Bool) (due : Nat) : LoopStep ⟨.fetching, c⟩ ⟨.waiting due, c⟩
  | again (due : Nat) : LoopStep ⟨.waiting due, false⟩ ⟨.fetching, false⟩
  | finish (due : Nat) : LoopStep ⟨.waiting due, true⟩ ⟨.ended, true⟩

namespace Query

/-- The query after a move. -/
def move (m : Move) (q : Query) : Query :=
  match m with
  | .start => q.start.1
  | .spawn i => q.spawn i
  | .stop => q.stop.1
  | .beginDirect => q.beginDirect
  | .settleDirect result at_ => q.settleDirect result at_
  | .beginLoop i => q.beginLoop i
  | .settleLoop i result at_ now => q.settleLoop i result at_ now
  | .wake i now => q.wake i now

/-- The query after a list of moves. -/
def run : List Move → Query → Query
  | [], q => q
  | m :: ms, q => run ms (q.move m)

@[simp] theorem run_nil (q : Query) : q.run [] = q := rfl

@[simp] theorem run_cons (m : Move) (ms : List Move) (q : Query) :
    q.run (m :: ms) = (q.move m).run ms := rfl

theorem run_append (ms ns : List Move) (q : Query) : q.run (ms ++ ns) = (q.run ms).run ns := by
  induction ms generalizing q with
  | nil => rfl
  | cons m ms ih => exact ih (q.move m)

/-! ## Reading a loop -/

theorem phase_eq {q : Query} {i : Nat} {l : Loop} (h : q.loops[i]? = some l) :
    q.phase i = l.phase := by
  simp [phase, h]

theorem isCancelled_eq {q : Query} {i : Nat} {l : Loop} (h : q.loops[i]? = some l) :
    q.isCancelled i = l.cancelled := by
  simp [isCancelled, h]

/-- A loop that is not cancelled is one that exists. -/
theorem exists_loop_of_not_isCancelled {q : Query} {i : Nat} (h : q.isCancelled i = false) :
    ∃ l, q.loops[i]? = some l ∧ l.cancelled = false := by
  cases hl : q.loops[i]? with
  | none => simp [isCancelled, hl] at h
  | some l => exact ⟨l, rfl, (isCancelled_eq hl).symm.trans h⟩

/-- A loop in a phase other than the last is one that exists. -/
theorem exists_loop_of_phase {q : Query} {i : Nat} (h : q.phase i ≠ .ended) :
    ∃ l, q.loops[i]? = some l ∧ l.phase = q.phase i := by
  cases hl : q.loops[i]? with
  | none => simp [phase, hl] at h
  | some l => exact ⟨l, rfl, (phase_eq hl).symm⟩

/-! ## Setting a phase -/

theorem getElem?_loops_setPhase (q : Query) (i j : Nat) (p : Phase) :
    (q.setPhase i p).loops[j]? =
      if i = j then q.loops[j]?.map fun l => { l with phase := p } else q.loops[j]? := by
  simp only [setPhase, List.getElem?_modify]
  split <;> simp

@[simp] theorem isCancelled_setPhase (q : Query) (i j : Nat) (p : Phase) :
    (q.setPhase i p).isCancelled j = q.isCancelled j := by
  simp only [isCancelled, getElem?_loops_setPhase]
  split
  · cases q.loops[j]? <;> rfl
  · rfl

/-- A loop that has not ended is in the phase that it is set to. -/
theorem phase_setPhase_self {q : Query} {i : Nat} (h : q.phase i ≠ .ended) (p : Phase) :
    (q.setPhase i p).phase i = p := by
  obtain ⟨l, hl, -⟩ := exists_loop_of_phase h
  rw [phase_eq (l := { l with phase := p })]
  rw [getElem?_loops_setPhase, if_pos rfl, hl, Option.map_some]

/-- Setting the phase of a loop is a step of that loop, if it is one, and leaves the others alone. -/
theorem loopStep_setPhase {q : Query} {i j : Nat} {l : Loop} {p : Phase}
    (h : q.loops[j]? = some l)
    (hp : LoopStep ⟨q.phase i, q.isCancelled i⟩ ⟨p, q.isCancelled i⟩) :
    ∃ l', (q.setPhase i p).loops[j]? = some l' ∧ LoopStep l l' := by
  rw [getElem?_loops_setPhase, h]
  by_cases hij : i = j
  · subst hij
    rw [phase_eq h, isCancelled_eq h] at hp
    rw [if_pos rfl]
    exact ⟨_, rfl, hp⟩
  · rw [if_neg hij]
    exact ⟨l, rfl, .stay l⟩

/-! ## Cancelling and starting -/

@[simp] theorem options_cancelTimer (q : Query) : q.cancelTimer.options = q.options := by
  simp only [cancelTimer]
  split <;> rfl

@[simp] theorem timer_cancelTimer (q : Query) : q.cancelTimer.timer = none := by
  cases h : q.timer <;> simp [cancelTimer, h]

@[simp] theorem length_loops_cancelTimer (q : Query) :
    q.cancelTimer.loops.length = q.loops.length := by
  simp only [cancelTimer]
  split <;> simp

theorem getElem?_loops_cancelTimer (q : Query) (j : Nat) :
    q.cancelTimer.loops[j]? =
      if q.timer = some j then q.loops[j]?.map fun l => { l with cancelled := true }
      else q.loops[j]? := by
  cases h : q.timer with
  | none => simp [cancelTimer, h]
  | some i =>
    simp only [cancelTimer, h, List.getElem?_modify, Option.some.injEq]
    split <;> simp

theorem isCancelled_cancelTimer_eq_false {q : Query} {j : Nat} :
    q.cancelTimer.isCancelled j = false ↔ q.isCancelled j = false ∧ q.timer ≠ some j := by
  simp only [isCancelled, getElem?_loops_cancelTimer]
  by_cases h : q.timer = some j
  · cases q.loops[j]? <;> simp [h]
  · simp [h]

theorem loopStep_cancelTimer {q : Query} {j : Nat} {l : Loop} (h : q.loops[j]? = some l) :
    ∃ l', q.cancelTimer.loops[j]? = some l' ∧ LoopStep l l' := by
  rw [getElem?_loops_cancelTimer, h]
  split
  · exact ⟨_, rfl, .cancel l.phase l.cancelled⟩
  · exact ⟨l, rfl, .stay l⟩

/-- Starting a query that polls adds a loop, which is from then on the one that counts. -/
theorem start_of_isPolling {q : Query} (h : q.options.isPolling = true) :
    q.start =
      ({ q.cancelTimer with
          loops := q.cancelTimer.loops ++ [⟨.pending, false⟩]
          timer := some q.loops.length },
        some q.loops.length) := by
  simp only [start, options_cancelTimer, h, length_loops_cancelTimer, if_true]

/-- Starting a query that does not poll is stopping it. -/
theorem start_of_not_isPolling {q : Query} (h : q.options.isPolling = false) :
    q.start = (q.cancelTimer, none) := by
  simp [start, h]

theorem loopStep_start {q : Query} {j : Nat} {l : Loop} (h : q.loops[j]? = some l) :
    ∃ l', q.start.1.loops[j]? = some l' ∧ LoopStep l l' := by
  obtain ⟨l', hl', hs⟩ := loopStep_cancelTimer h
  refine ⟨l', ?_, hs⟩
  by_cases hp : q.options.isPolling = true
  · rw [start_of_isPolling hp]
    exact (List.getElem?_append_left (List.getElem?_eq_some_iff.mp hl').1).trans hl'
  · rw [start_of_not_isPolling (Bool.eq_false_iff.mpr hp)]
    exact hl'

/-! ## What a move can do -/

/-- A move that does not swap the timer changes at most what the query knows, and at most one loop,
whose phase goes one step on. -/
theorem move_cases {m : Move} (hm : m.swaps = false) (q : Query) :
    ∃ s v d, q.move m = { q with snapshot := s, version := v, direct := d } ∨
      ∃ i p, q.move m = { q with snapshot := s, version := v, direct := d }.setPhase i p ∧
        LoopStep ⟨q.phase i, q.isCancelled i⟩ ⟨p, q.isCancelled i⟩ := by
  have stays : ∃ s v d, q = { q with snapshot := s, version := v, direct := d } ∨
      ∃ i p, q = { q with snapshot := s, version := v, direct := d }.setPhase i p ∧
        LoopStep ⟨q.phase i, q.isCancelled i⟩ ⟨p, q.isCancelled i⟩ := ⟨_, _, _, .inl rfl⟩
  cases m with
  | start | stop => cases hm
  | beginDirect => exact ⟨_, _, _, .inl rfl⟩
  | settleDirect result at_ =>
    simp only [move, settleDirect]
    split
    · exact stays
    · exact ⟨_, _, _, .inl rfl⟩
  | spawn i =>
    simp only [move, spawn]
    split
    · rename_i hi
      exact ⟨_, _, _, .inr ⟨i, _, rfl, by rw [hi]; exact .spawn _⟩⟩
    · exact stays
  | beginLoop i =>
    simp only [move, beginLoop]
    split
    · rename_i hi
      exact ⟨_, _, _, .inr ⟨i, _, rfl, by rw [hi]; exact .first _⟩⟩
    · exact stays
  | settleLoop i result at_ now =>
    simp only [move, settleLoop]
    split
    · rename_i hi
      exact ⟨_, _, _, .inr ⟨i, _, rfl, by rw [hi]; exact .settle _ _⟩⟩
    · exact stays
  | wake i now =>
    simp only [move, wake]
    split
    · rename_i due hi
      split
      · rename_i hc
        exact ⟨_, _, _, .inr ⟨i, _, rfl, by rw [hi, hc]; exact .finish due⟩⟩
      · rename_i hc
        split
        · exact ⟨_, _, _, .inr ⟨i, _, rfl, by
            rw [hi, Bool.eq_false_iff.mpr hc]
            exact .again due⟩⟩
        · exact stays
    · exact stays

theorem timer_move {m : Move} (hm : m.swaps = false) (q : Query) : (q.move m).timer = q.timer := by
  obtain ⟨s, v, d, h | ⟨i, p, h, -⟩⟩ := move_cases hm q
  · rw [h]
  · rw [h]
    rfl

theorem isCancelled_move {m : Move} (hm : m.swaps = false) (q : Query) (j : Nat) :
    (q.move m).isCancelled j = q.isCancelled j := by
  obtain ⟨s, v, d, h | ⟨i, p, h, -⟩⟩ := move_cases hm q
  · rw [h]
    rfl
  · rw [h, isCancelled_setPhase]
    rfl

theorem options_move (m : Move) (q : Query) : (q.move m).options = q.options := by
  cases hm : m.swaps with
  | false =>
    obtain ⟨s, v, d, h | ⟨i, p, h, -⟩⟩ := move_cases hm q
    · rw [h]
    · rw [h]
      rfl
  | true =>
    cases m with
    | stop => exact options_cancelTimer q
    | start =>
      cases hp : q.options.isPolling with
      | true => simp only [move, start_of_isPolling hp, options_cancelTimer]
      | false => simp only [move, start_of_not_isPolling hp, options_cancelTimer]
    | _ => cases hm

theorem options_run (ms : List Move) (q : Query) : (q.run ms).options = q.options := by
  induction ms generalizing q with
  | nil => rfl
  | cons m ms ih => rw [run_cons, ih, options_move]

theorem id_move (m : Move) (q : Query) : (q.move m).id = q.id := by
  have hcancel : q.cancelTimer.id = q.id := by
    simp only [cancelTimer]
    split <;> rfl
  cases hm : m.swaps with
  | false =>
    obtain ⟨s, v, d, h | ⟨i, p, h, -⟩⟩ := move_cases hm q
    · rw [h]
    · rw [h]
      rfl
  | true =>
    cases m with
    | stop => exact hcancel
    | start =>
      cases hp : q.options.isPolling with
      | true => simp only [move, start_of_isPolling hp, hcancel]
      | false => simp only [move, start_of_not_isPolling hp, hcancel]
    | _ => cases hm

theorem id_run (ms : List Move) (q : Query) : (q.run ms).id = q.id := by
  induction ms generalizing q with
  | nil => rfl
  | cons m ms ih => rw [run_cons, ih, id_move]

/-- A query that a start leaves is polling if its interval makes it poll. -/
theorem isPolling_start {q : Query} (h : q.options.isPolling = true) :
    (q.move .start).isPolling = true := by
  simp [move, start_of_isPolling h, isPolling, isCancelled]

theorem isPolling_stop (q : Query) : (q.move .stop).isPolling = false := by
  simp [move, stop, isPolling]

/-- Nothing but a start makes a query poll. -/
theorem isPolling_of_move {m : Move} (hm : m ≠ .start) {q : Query}
    (h : (q.move m).isPolling = true) : q.isPolling = true := by
  cases hs : m.swaps with
  | false => simpa only [isPolling, timer_move hs, isCancelled_move hs] using h
  | true =>
    cases m with
    | start => exact absurd rfl hm
    | stop => simp [isPolling_stop] at h
    | _ => cases hs

/-- Nothing but a stop keeps a query from polling on. -/
theorem isPolling_move {m : Move} (hm : m ≠ .stop) {q : Query} (ho : q.options.isPolling = true)
    (h : q.isPolling = true) : (q.move m).isPolling = true := by
  cases hs : m.swaps with
  | false => simpa only [isPolling, timer_move hs, isCancelled_move hs] using h
  | true =>
    cases m with
    | start => exact isPolling_start ho
    | stop => exact absurd rfl hm
    | _ => cases hs

/-- A move that is no start makes no loop. -/
theorem length_loops_move {m : Move} (hm : m ≠ .start) (q : Query) :
    (q.move m).loops.length = q.loops.length := by
  cases hs : m.swaps with
  | false =>
    obtain ⟨s, v, d, h | ⟨i, p, h, -⟩⟩ := move_cases hs q
    · rw [h]
    · simp [h, setPhase]
  | true =>
    cases m with
    | start => exact absurd rfl hm
    | stop => exact length_loops_cancelTimer q
    | _ => cases hs

/-- Every move is a step of every loop there is, if only the step of staying as it is. -/
theorem loopStep_move (m : Move) {q : Query} {j : Nat} {l : Loop} (h : q.loops[j]? = some l) :
    ∃ l', (q.move m).loops[j]? = some l' ∧ LoopStep l l' := by
  cases hm : m.swaps with
  | false =>
    obtain ⟨s, v, d, he | ⟨i, p, he, hp⟩⟩ := move_cases hm q
    · rw [he]
      exact ⟨l, h, .stay l⟩
    · rw [he]
      exact loopStep_setPhase h hp
  | true =>
    cases m with
    | start => exact loopStep_start h
    | stop => exact loopStep_cancelTimer h
    | _ => cases hm

/-- A loop after a move is a loop from before it, one step on, or it has just been decided on. -/
theorem loop_of_move {m : Move} {q : Query} {j : Nat} {l' : Loop}
    (h : (q.move m).loops[j]? = some l') :
    (∃ l, q.loops[j]? = some l ∧ LoopStep l l') ∨
      (m = .start ∧ q.options.isPolling = true ∧ j = q.loops.length ∧ l' = ⟨.pending, false⟩) := by
  cases hl : q.loops[j]? with
  | some l =>
    obtain ⟨k, hk, hs⟩ := loopStep_move m hl
    rw [h] at hk
    cases hk
    exact .inl ⟨l, rfl, hs⟩
  | none =>
    have hj : q.loops.length ≤ j := List.getElem?_eq_none_iff.mp hl
    have hj' : j < (q.move m).loops.length := (List.getElem?_eq_some_iff.mp h).1
    by_cases hm : m = .start
    · subst hm
      by_cases hp : q.options.isPolling = true
      · simp only [move, start_of_isPolling hp, List.length_append, length_loops_cancelTimer,
          List.length_singleton] at h hj'
        obtain rfl : j = q.loops.length := by omega
        rw [List.getElem?_append_right (by simp)] at h
        simp only [length_loops_cancelTimer, Nat.sub_self, List.getElem?_cons_zero,
          Option.some.injEq] at h
        exact .inr ⟨rfl, hp, rfl, h.symm⟩
      · rw [move, start_of_not_isPolling (Bool.eq_false_iff.mpr hp), length_loops_cancelTimer] at hj'
        omega
    · rw [length_loops_move hm] at hj'
      omega

end Query
end LiveQuery
