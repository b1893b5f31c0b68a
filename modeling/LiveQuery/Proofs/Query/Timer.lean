import LiveQuery.Proofs.Query.Move

/-!
# The loop that counts

In every run of a query the timer names the only loop that has not been cancelled, and that loop
has not ended (`wellTimed_run`). A loop that has begun its first request and has been cancelled
begins no other one in any run (`not_begins_of_isSpent`). The first request is the exception: a
task that has not had its first turn does not look at its token before it fetches, so after a stop
the loops that have not begun yet, and no others, still begin one request each
(`begins_after_stop`).
-/

namespace LiveQuery

/-- Whether a loop in this phase has begun its first request. -/
def Phase.hasBegun : Phase → Bool
  | .pending | .spawned => false
  | .fetching | .waiting _ | .ended => true

theorem Phase.hasBegun_eq_false {p : Phase} : p.hasBegun = false ↔ p = .pending ∨ p = .spawned := by
  cases p <;> simp [hasBegun]

namespace LoopStep

variable {l l' : Loop}

theorem hasBegun (h : LoopStep l l') (hl : l.phase.hasBegun = true) : l'.phase.hasBegun = true := by
  cases h with
  | stay | cancel => exact hl
  | spawn | first => cases hl
  | settle | again | finish => rfl

theorem cancelled (h : LoopStep l l') (hl : l.cancelled = true) : l'.cancelled = true := by
  cases h with
  | stay | spawn | first | settle => exact hl
  | cancel | finish => rfl
  | again => cases hl

/-- Only a loop that finds itself cancelled ends. -/
theorem not_ended (h : LoopStep l l') (hl : l.phase ≠ .ended) (hl' : l'.cancelled = false) :
    l'.phase ≠ .ended := by
  cases h with
  | stay => exact hl
  | cancel | finish => cases hl'
  | spawn | first | settle | again => simp

/-- A loop that ends has been cancelled before. -/
theorem cancelled_of_ended (h : LoopStep l l') (hl : l.phase ≠ .ended)
    (hl' : l'.phase = .ended) : l.cancelled = true := by
  cases h with
  | stay | cancel => exact absurd hl' hl
  | spawn | first | settle | again => cases hl'
  | finish => rfl

/-- A loop begins a request at its first turn, or out of its wait when it is not cancelled. -/
theorem of_fetching (h : LoopStep l l') (hl : l.phase ≠ .fetching) (hl' : l'.phase = .fetching) :
    l.phase = .spawned ∨ l.phase.hasBegun = true ∧ l.cancelled = false := by
  cases h with
  | stay | cancel => exact absurd hl' hl
  | spawn | settle | finish => cases hl'
  | first => exact .inl rfl
  | again => exact .inr ⟨rfl, rfl⟩

end LoopStep

namespace Query

/-! ## The invariant -/

/-- The timer names the one loop that is not cancelled, which has not ended; and a query that does
not poll has no loop. -/
structure WellTimed (q : Query) : Prop where
  timer_iff : ∀ i, q.timer = some i ↔ q.isCancelled i = false
  not_ended : ∀ i, q.isCancelled i = false → q.phase i ≠ .ended
  no_loops : q.options.isPolling = false → q.loops = []

theorem wellTimed_fresh (id : Nat) (client : Client) (endpoint : Endpoint) (filter : Filter)
    (options : QueryOptions) : (fresh id client endpoint filter options).WellTimed where
  timer_iff i := by simp [fresh, isCancelled]
  not_ended i h := by simp [fresh, isCancelled] at h
  no_loops _ := rfl

namespace WellTimed

variable {q : Query}

/-- After a stop every loop is cancelled. -/
theorem isCancelled_stop (hq : q.WellTimed) (i : Nat) : (q.move .stop).isCancelled i = true := by
  rw [← Bool.not_eq_false, move, stop, isCancelled_cancelTimer_eq_false]
  rintro ⟨hi, ht⟩
  exact ht ((hq.timer_iff i).mpr hi)

/-- After a start every loop is cancelled but the new one, if the query polls. -/
theorem isCancelled_start (hq : q.WellTimed) (i : Nat) :
    (q.move .start).isCancelled i = false ↔ q.options.isPolling = true ∧ i = q.loops.length := by
  have hstop : q.cancelTimer.isCancelled i = true := hq.isCancelled_stop i
  cases hp : q.options.isPolling with
  | false => simp [move, start_of_not_isPolling hp, hstop]
  | true =>
    simp only [move, start_of_isPolling hp, true_and]
    constructor
    · intro h
      obtain ⟨l, hl, hc⟩ := exists_loop_of_not_isCancelled h
      by_cases hi : i < q.cancelTimer.loops.length
      · have hl' : q.cancelTimer.loops[i]? = some l := by
          rwa [List.getElem?_append_left hi] at hl
        rw [isCancelled_eq hl', hc] at hstop
        cases hstop
      · have := (List.getElem?_eq_some_iff.mp hl).1
        simp only [List.length_append, length_loops_cancelTimer, List.length_singleton] at hi this
        omega
    · rintro rfl
      simp [isCancelled]

theorem timer_start (q : Query) (i : Nat) :
    (q.move .start).timer = some i ↔ q.options.isPolling = true ∧ i = q.loops.length := by
  cases hp : q.options.isPolling with
  | false => simp [move, start_of_not_isPolling hp]
  | true => simp [move, start_of_isPolling hp, eq_comm]

theorem timer_iff_move (m : Move) (hq : q.WellTimed) (i : Nat) :
    (q.move m).timer = some i ↔ (q.move m).isCancelled i = false := by
  cases hm : m.swaps with
  | false => rw [timer_move hm, isCancelled_move hm, hq.timer_iff]
  | true =>
    cases m with
    | start => rw [timer_start, hq.isCancelled_start]
    | stop =>
      rw [hq.isCancelled_stop i]
      simp [move, stop]
    | _ => cases hm

/-- A query polls if and only if the timer names a loop. -/
theorem isPolling_iff (hq : q.WellTimed) : q.isPolling = true ↔ ∃ i, q.timer = some i := by
  cases ht : q.timer with
  | none => simp [isPolling, ht]
  | some i => simp [isPolling, ht, (hq.timer_iff i).mp ht]

end WellTimed

/-- Every move keeps the invariant. -/
theorem wellTimed_move {q : Query} (m : Move) (hq : q.WellTimed) : (q.move m).WellTimed where
  timer_iff := hq.timer_iff_move m
  not_ended := by
    intro i hc
    obtain ⟨l', hl', hc'⟩ := exists_loop_of_not_isCancelled hc
    rw [phase_eq hl']
    rcases loop_of_move hl' with ⟨l, hl, hs⟩ | ⟨-, -, -, rfl⟩
    · have hlc : l.cancelled = false := by
        rw [← Bool.not_eq_true]
        intro h
        rw [hs.cancelled h] at hc'
        cases hc'
      have hne := hq.not_ended i ((isCancelled_eq hl).trans hlc)
      rw [phase_eq hl] at hne
      exact hs.not_ended hne hc'
    · simp
  no_loops := by
    intro hp
    rw [options_move] at hp
    have hnil := hq.no_loops hp
    apply List.eq_nil_iff_forall_not_mem.mpr
    intro l' hl'
    obtain ⟨j, hj⟩ := List.mem_iff_getElem?.mp hl'
    rcases loop_of_move hj with ⟨l, hl, -⟩ | ⟨-, hp', -, -⟩
    · simp [hnil] at hl
    · rw [hp] at hp'
      cases hp'

/-- Every run keeps the invariant. -/
theorem wellTimed_run {q : Query} (ms : List Move) (hq : q.WellTimed) : (q.run ms).WellTimed := by
  induction ms generalizing q with
  | nil => exact hq
  | cons m ms ih => exact ih (wellTimed_move m hq)

/-! ## Beginning a request -/

/-- The move begins a request of the loop. -/
def Begins (m : Move) (i : Nat) (q : Query) : Prop :=
  q.phase i ≠ .fetching ∧ (q.move m).phase i = .fetching

instance (m : Move) (i : Nat) (q : Query) : Decidable (q.Begins m i) :=
  inferInstanceAs (Decidable (_ ∧ _))

/-- A loop that begins a request has its first turn, or has begun before and is not cancelled. -/
theorem Begins.cases {m : Move} {i : Nat} {q : Query} (h : q.Begins m i) :
    q.phase i = .spawned ∨ (q.phase i).hasBegun = true ∧ q.isCancelled i = false := by
  obtain ⟨l', hl', hp'⟩ := exists_loop_of_phase (q := q.move m) (i := i) (by rw [h.2]; simp)
  rw [h.2] at hp'
  rcases loop_of_move hl' with ⟨l, hl, hs⟩ | ⟨-, -, -, rfl⟩
  · have hp : l.phase ≠ .fetching := phase_eq hl ▸ h.1
    rw [phase_eq hl, isCancelled_eq hl]
    exact hs.of_fetching hp hp'
  · cases hp'

/-- A task that has its first turn begins a request, cancelled or not. -/
theorem begins_beginLoop {i : Nat} {q : Query} (h : q.phase i = .spawned) :
    q.Begins (.beginLoop i) i := by
  have hne : q.beginFetch.phase i ≠ .ended := by
    change q.phase i ≠ .ended
    simp [h]
  refine ⟨by simp [h], ?_⟩
  simp only [move, beginLoop, h]
  exact phase_setPhase_self hne .fetching

/-! ## Loops that begin nothing any more -/

/-- The loop has begun its first request. -/
def HasBegun (i : Nat) (q : Query) : Prop := ∃ l, q.loops[i]? = some l ∧ l.phase.hasBegun = true

/-- The loop has begun its first request and has been cancelled. -/
def IsSpent (i : Nat) (q : Query) : Prop :=
  ∃ l, q.loops[i]? = some l ∧ l.phase.hasBegun = true ∧ l.cancelled = true

theorem Begins.hasBegun {m : Move} {i : Nat} {q : Query} (h : q.Begins m i) :
    (q.move m).HasBegun i := by
  obtain ⟨l, hl, hp⟩ := exists_loop_of_phase (q := q.move m) (i := i) (by rw [h.2]; simp)
  exact ⟨l, hl, by rw [hp, h.2]; rfl⟩

theorem hasBegun_run {i : Nat} {q : Query} (ms : List Move) (h : q.HasBegun i) :
    (q.run ms).HasBegun i := by
  induction ms generalizing q with
  | nil => exact h
  | cons m ms ih =>
    obtain ⟨l, hl, hb⟩ := h
    obtain ⟨l', hl', hs⟩ := loopStep_move m hl
    exact ih ⟨l', hl', hs.hasBegun hb⟩

theorem HasBegun.isSpent {i : Nat} {q : Query} (h : q.HasBegun i) (hc : q.isCancelled i = true) :
    q.IsSpent i := by
  obtain ⟨l, hl, hb⟩ := h
  exact ⟨l, hl, hb, (isCancelled_eq hl).symm.trans hc⟩

theorem isSpent_run {i : Nat} {q : Query} (ms : List Move) (h : q.IsSpent i) :
    (q.run ms).IsSpent i := by
  induction ms generalizing q with
  | nil => exact h
  | cons m ms ih =>
    obtain ⟨l, hl, hb, hc⟩ := h
    obtain ⟨l', hl', hs⟩ := loopStep_move m hl
    exact ih ⟨l', hl', hs.hasBegun hb, hs.cancelled hc⟩

theorem not_begins_of_isSpent {i : Nat} {q : Query} (m : Move) (h : q.IsSpent i) :
    ¬ q.Begins m i := by
  obtain ⟨l, hl, hb, hc⟩ := h
  intro hbeg
  rcases hbeg.cases with hp | ⟨-, hc'⟩
  · rw [← phase_eq hl, hp] at hb
    cases hb
  · rw [isCancelled_eq hl, hc] at hc'
    cases hc'

/-! ## After a stop -/

theorem phase_stop (q : Query) (i : Nat) : (q.move .stop).phase i = q.phase i := by
  simp only [phase, move, stop, getElem?_loops_cancelTimer]
  split
  · cases q.loops[i]? <;> rfl
  · rfl

/-- Every loop there ever was is cancelled. -/
def AllCancelled (q : Query) : Prop := ∀ i, q.isCancelled i = true

/-- Without a start, loops that are all cancelled stay so. -/
theorem allCancelled_move {m : Move} (hm : m ≠ .start) {q : Query} (h : q.AllCancelled) :
    (q.move m).AllCancelled := by
  intro i
  rw [← Bool.not_eq_false]
  intro hc
  obtain ⟨l', hl', hc'⟩ := exists_loop_of_not_isCancelled hc
  rcases loop_of_move hl' with ⟨l, hl, hs⟩ | ⟨hstart, -⟩
  · rw [hs.cancelled ((isCancelled_eq hl).symm.trans (h i))] at hc'
    cases hc'
  · exact hm hstart

theorem allCancelled_run {ms : List Move} (hms : .start ∉ ms) {q : Query} (h : q.AllCancelled) :
    (q.run ms).AllCancelled := by
  induction ms generalizing q with
  | nil => exact h
  | cons m ms ih =>
    rw [List.mem_cons, not_or] at hms
    exact ih hms.2 (allCancelled_move (Ne.symm hms.1) h)

/-- Without a start no loop is made: one that has not begun had not begun before either. -/
theorem phase_hasBegun_run {ms : List Move} (hms : .start ∉ ms) {i : Nat} {q : Query}
    (h : (q.phase i).hasBegun = true) : ((q.run ms).phase i).hasBegun = true := by
  induction ms generalizing q with
  | nil => exact h
  | cons m ms ih =>
    rw [List.mem_cons, not_or] at hms
    refine ih hms.2 ?_
    cases hl' : (q.move m).loops[i]? with
    | none => simp [phase, hl', Phase.hasBegun]
    | some l' =>
      rcases loop_of_move hl' with ⟨l, hl, hs⟩ | ⟨hstart, -⟩
      · rw [phase_eq hl']
        rw [phase_eq hl] at h
        exact hs.hasBegun h
      · exact absurd hstart.symm hms.1

/-- When all loops are cancelled, those that begin a request before the next start are at their
first turn, which they had not had when the loops were cancelled. -/
theorem begins_after_stop {ms : List Move} (hms : .start ∉ ms) {q : Query} (hq : q.AllCancelled)
    {m : Move} {i : Nat} (h : (q.run ms).Begins m i) :
    (q.run ms).phase i = .spawned ∧ (q.phase i).hasBegun = false := by
  have hsp : (q.run ms).phase i = .spawned := by
    rcases h.cases with hp | ⟨-, hc⟩
    · exact hp
    · rw [allCancelled_run hms hq i] at hc
      cases hc
  refine ⟨hsp, ?_⟩
  rw [← Bool.not_eq_true]
  intro hb
  have := phase_hasBegun_run hms hb
  rw [hsp] at this
  cases this

/-- A loop that has not begun can still begin, whether cancelled or not. -/
theorem exists_begins {i : Nat} {q : Query} (h : (q.phase i).hasBegun = false) :
    (q.move (.spawn i)).Begins (.beginLoop i) i := by
  apply begins_beginLoop
  rcases Phase.hasBegun_eq_false.mp h with hp | hp
  · simp only [move, spawn, hp]
    exact phase_setPhase_self (by simp [hp]) .spawned
  · simp only [move, spawn, hp]

end Query
end LiveQuery
