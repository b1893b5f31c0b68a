import LiveQuery.Proofs.Query.Ledger

/-!
# The pace of a polling loop

What a loop sends and has answered is a list of marks, each with its time. A move made at a point in
time leaves one mark of a loop at most, and `LoopMark` says what that does to the phase of the loop.
So the marks of a loop come by turns, and a request follows an answer by the interval at least
(`Rests`); `Pace` ties this to the phase that the loop is in, and `Pace.step` keeps it.
-/

namespace LiveQuery

/-- What a loop has done, and when. -/
inductive Mark where
  | sent (t : Nat)
  | answered (t : Nat) (result : Except FetchError Response)

namespace Mark

/-- When a request was sent. -/
def sent? : Mark → Option Nat
  | sent t => some t
  | answered _ _ => none

/-- When an answer came. -/
def answered? : Mark → Option Nat
  | sent _ => none
  | answered t _ => some t

end Mark

/-- The times at which requests were sent. -/
def sentTimes (ms : List Mark) : List Nat := ms.filterMap Mark.sent?

/-- The times at which answers came. -/
def answeredTimes (ms : List Mark) : List Nat := ms.filterMap Mark.answered?

namespace Move

/-- The move as it is made at a point in time. -/
def at_ (now : Nat) : Move → Move
  | settleLoop i result stamp _ => settleLoop i result stamp now
  | wake i _ => wake i now
  | m => m

/-- The mark that a move made at a point in time leaves of a loop. -/
def mark? (i now : Nat) (m : Move) (q : Query) : Option Mark :=
  match m.event? q with
  | none => none
  | some .begun => if m.sender? = some (.loop i) then some (.sent now) else none
  | some (.settled result) =>
    if m.answer?.map Prod.fst = some (.loop i) then some (.answered now result) else none

end Move

/-- What a move made at a point in time does to the phase of a loop, if the loop is there, and the
mark it leaves. -/
inductive LoopMark (interval now : Nat) : Option Phase → Option Mark → Option Phase → Prop
  | stay (p : Option Phase) : LoopMark interval now p none p
  | decide : LoopMark interval now none none (some .pending)
  | spawn : LoopMark interval now (some .pending) none (some .spawned)
  | finish (due : Nat) : LoopMark interval now (some (.waiting due)) none (some .ended)
  | first : LoopMark interval now (some .spawned) (some (.sent now)) (some .fetching)
  | again {due : Nat} (hd : due ≤ now) :
    LoopMark interval now (some (.waiting due)) (some (.sent now)) (some .fetching)
  | settle (result : Except FetchError Response) :
    LoopMark interval now (some .fetching) (some (.answered now result))
      (some (.waiting (now + interval)))

/-- A loop ends without a mark. -/
theorem LoopMark.eq_none_of_ended {interval now : Nat} {p : Option Phase} {k : Option Mark}
    (h : LoopMark interval now p k (some .ended)) (hp : p ≠ some .ended) : k = none := by
  cases h with
  | stay => exact absurd rfl hp
  | finish => rfl

namespace Query

/-- The phase of a loop, if the loop is there. -/
def phase? (q : Query) (i : Nat) : Option Phase := q.loops[i]?.map Loop.phase

theorem phase?_eq_some {q : Query} {i : Nat} (h : q.phase i ≠ .ended) :
    q.phase? i = some (q.phase i) := by
  obtain ⟨l, hl, hp⟩ := exists_loop_of_phase h
  rw [phase?, hl, Option.map_some, hp]

theorem phase?_setPhase (q : Query) (i j : Nat) (p : Phase) :
    (q.setPhase i p).phase? j = if i = j then (q.phase? j).map fun _ => p else q.phase? j := by
  rw [phase?, getElem?_loops_setPhase]
  split
  · simp [phase?, Function.comp_def]
  · rfl

theorem phase?_cancelTimer (q : Query) (j : Nat) : q.cancelTimer.phase? j = q.phase? j := by
  rw [phase?, getElem?_loops_cancelTimer]
  split
  · simp [phase?, Function.comp_def]
  · rfl

/-- A start leaves the phases of all loops alone, and decides on one that was not there. -/
theorem loopMark_start (interval now : Nat) (q : Query) (j : Nat) :
    LoopMark interval now (q.phase? j) none ((q.move .start).phase? j) := by
  cases hp : q.options.isPolling with
  | false =>
    rw [move, start_of_not_isPolling hp, phase?_cancelTimer]
    exact .stay _
  | true =>
    rw [move, start_of_isPolling hp, ← phase?_cancelTimer, phase?, phase?]
    rcases Nat.lt_trichotomy j q.cancelTimer.loops.length with hj | rfl | hj
    · rw [List.getElem?_append_left hj]
      exact .stay _
    · rw [List.getElem?_concat_length, List.getElem?_eq_none (Nat.le_refl _)]
      exact .decide
    · rw [List.getElem?_eq_none (Nat.le_of_lt hj), List.getElem?_eq_none]
      · exact .stay none
      · simp only [List.length_append, List.length_singleton]
        omega

/-- A loop that goes into another phase and the others, which stay. -/
theorem loopMark_setPhase {interval now : Nat} {q q₁ : Query} {i : Nat} {p : Phase}
    {k : Option Mark} (hloops : q₁.loops = q.loops) (hi : q.phase i ≠ .ended)
    (hs : LoopMark interval now (some (q.phase i)) k (some p)) (j : Nat) :
    LoopMark interval now (q.phase? j) (if i = j then k else none)
      ((q₁.setPhase i p).phase? j) := by
  have hphase : q₁.phase? j = q.phase? j := by rw [phase?, hloops, phase?]
  rw [phase?_setPhase, hphase]
  by_cases hij : i = j
  · subst hij
    rw [if_pos rfl, if_pos rfl, phase?_eq_some hi, Option.map_some]
    exact hs
  · rw [if_neg hij, if_neg hij]
    exact .stay _

/-- A loop that goes into another phase without a mark. -/
theorem loopMark_setPhase_none {interval now : Nat} {q : Query} {i : Nat} {p : Phase}
    (hi : q.phase i ≠ .ended) (hs : LoopMark interval now (some (q.phase i)) none (some p))
    (j : Nat) : LoopMark interval now (q.phase? j) none ((q.setPhase i p).phase? j) := by
  have h := loopMark_setPhase rfl hi hs j
  rwa [ite_self] at h

theorem loopMark_move (m : Move) (now : Nat) (q : Query) (j : Nat) :
    LoopMark q.options.pollIntervalMs now (q.phase? j) ((m.at_ now).mark? j now q)
      ((q.move (m.at_ now)).phase? j) := by
  cases m with
  | start => exact loopMark_start _ now q j
  | stop =>
    show LoopMark _ now _ none (q.cancelTimer.phase? j)
    rw [phase?_cancelTimer]
    exact .stay _
  | spawn i =>
    simp only [Move.at_, Move.mark?, Move.event?, move, spawn]
    split
    · rename_i hi
      exact loopMark_setPhase_none (by simp [hi]) (hi ▸ .spawn) j
    · exact .stay _
  | beginDirect =>
    show LoopMark _ now _ none (q.phase? j)
    exact .stay _
  | settleDirect result stamp =>
    simp only [Move.at_, Move.mark?, Move.event?, Move.answer?, move, settleDirect]
    by_cases hd : q.direct = 0
    · simp only [hd, if_true]
      exact .stay _
    · simp only [hd, if_false, Option.map_some, Option.some.injEq, reduceCtorEq]
      exact .stay _
  | beginLoop i =>
    simp only [Move.at_, Move.mark?, Move.event?, Move.sender?, move, beginLoop]
    by_cases hi : q.phase i = .spawned
    · simp only [hi, if_true, Option.some.injEq, Requester.loop.injEq]
      exact loopMark_setPhase rfl (by simp [hi]) (hi ▸ .first) j
    · simp only [if_neg hi]
      exact .stay _
  | settleLoop i result stamp t =>
    simp only [Move.at_, Move.mark?, Move.event?, Move.answer?, move, settleLoop]
    by_cases hi : q.phase i = .fetching
    · simp only [hi, if_true, Option.map_some, Option.some.injEq, Requester.loop.injEq]
      exact loopMark_setPhase rfl (by simp [hi]) (hi ▸ .settle result) j
    · simp only [if_neg hi]
      exact .stay _
  | wake i t =>
    simp only [Move.at_, Move.mark?, Move.event?, Move.sender?, move, wake]
    cases hi : q.phase i with
    | waiting due =>
      by_cases hc : q.isCancelled i = true
      · simp only [hc, true_or, if_true]
        exact loopMark_setPhase_none (by simp [hi]) (hi ▸ .finish due) j
      · by_cases hd : due ≤ now
        · simp only [hc, hd, Nat.not_lt.mpr hd, or_false, if_true, Bool.false_eq_true, if_false,
            Option.some.injEq, Requester.loop.injEq]
          exact loopMark_setPhase rfl (by simp [hi]) (hi ▸ .again hd) j
        · simp only [hc, hd, Nat.lt_of_not_le hd, or_true, if_true, Bool.false_eq_true, if_false]
          exact .stay _
    | pending | spawned | fetching | ended => exact .stay _

/-- A loop that is not cancelled begins its next request when it looks about and that is due. -/
theorem phase?_wake {q : Query} {i due now : Nat} (hp : q.phase i = .waiting due)
    (hc : q.isCancelled i = false) (hd : due ≤ now) :
    (q.move (.wake i now)).phase? i = some .fetching := by
  simp only [move, wake, hp, hc, Bool.false_eq_true, if_false, if_pos hd]
  rw [phase?_setPhase, if_pos rfl]
  have hphase : q.phase? i = some (.waiting due) := by
    rw [phase?_eq_some (by simp [hp]), hp]
  rw [show q.beginFetch.phase? i = q.phase? i from rfl, hphase, Option.map_some]

end Query

/-! ## The marks of a loop -/

/-- Requests and answers by turns, and each request by the interval at least after the answer before
it. The next one is due at a point in time. -/
inductive Rests (interval : Nat) : List Mark → Nat → Prop
  | blank : Rests interval [] 0
  | answered {ms : List Mark} {due t t' : Nat} (hms : Rests interval ms due) (hdue : due ≤ t)
    (ht : t ≤ t') (result : Except FetchError Response) :
    Rests interval (ms ++ [.sent t] ++ [.answered t' result]) (t' + interval)

/-- What a loop in a phase, or one that is not there, has done by a point in time. -/
inductive Pace (interval now : Nat) : Option Phase → List Mark → Prop
  | absent : Pace interval now none []
  | pending : Pace interval now (some .pending) []
  | spawned : Pace interval now (some .spawned) []
  | fetching {ms : List Mark} {due t : Nat} (hms : Rests interval ms due) (hdue : due ≤ t)
    (ht : t ≤ now) : Pace interval now (some .fetching) (ms ++ [.sent t])
  | waiting {ms : List Mark} {due : Nat} (hms : Rests interval ms due) :
    Pace interval now (some (.waiting due)) ms
  | ended {ms : List Mark} {due : Nat} (hms : Rests interval ms due) :
    Pace interval now (some .ended) ms

theorem Pace.mono {interval now now' : Nat} {p : Option Phase} {ms : List Mark}
    (h : Pace interval now p ms) (hn : now ≤ now') : Pace interval now' p ms := by
  cases h with
  | absent => exact .absent
  | pending => exact .pending
  | spawned => exact .spawned
  | fetching hms hdue ht => exact .fetching hms hdue (Nat.le_trans ht hn)
  | waiting hms => exact .waiting hms
  | ended hms => exact .ended hms

/-- A move keeps the pace of every loop. -/
theorem Pace.step {interval now : Nat} {p p' : Option Phase} {k : Option Mark} {ms : List Mark}
    (h : Pace interval now p ms) (hk : LoopMark interval now p k p') :
    Pace interval now p' (ms ++ k.toList) := by
  cases hk with
  | stay =>
    rw [Option.toList_none, List.append_nil]
    exact h
  | decide =>
    cases h
    exact .pending
  | spawn =>
    cases h
    exact .spawned
  | finish due =>
    cases h with
    | waiting hms =>
      rw [Option.toList_none, List.append_nil]
      exact .ended hms
  | first =>
    cases h
    exact .fetching .blank (Nat.zero_le now) (Nat.le_refl now)
  | again hd =>
    cases h with
    | waiting hms => exact .fetching hms hd (Nat.le_refl now)
  | settle result =>
    cases h with
    | fetching hms hdue ht => exact .waiting (.answered hms hdue ht result)

/-- The request after any other is sent by the interval at least after that was answered. -/
def Spaced (interval : Nat) (ms : List Mark) : Prop :=
  ∀ n t', (sentTimes ms)[n + 1]? = some t' →
    ∃ t, (answeredTimes ms)[n]? = some t ∧ t + interval ≤ t'

section

variable {interval : Nat} {ms : List Mark} {due t : Nat}

@[simp] theorem sentTimes_concat_sent (ms : List Mark) (t : Nat) :
    sentTimes (ms ++ [.sent t]) = sentTimes ms ++ [t] := by
  simp [sentTimes, Mark.sent?]

@[simp] theorem answeredTimes_concat_sent (ms : List Mark) (t : Nat) :
    answeredTimes (ms ++ [.sent t]) = answeredTimes ms := by
  simp [answeredTimes, Mark.answered?]

@[simp] theorem sentTimes_concat_answered (ms : List Mark) (t : Nat)
    (result : Except FetchError Response) :
    sentTimes (ms ++ [.answered t result]) = sentTimes ms := by
  simp [sentTimes, Mark.sent?]

@[simp] theorem answeredTimes_concat_answered (ms : List Mark) (t : Nat)
    (result : Except FetchError Response) :
    answeredTimes (ms ++ [.answered t result]) = answeredTimes ms ++ [t] := by
  simp [answeredTimes, Mark.answered?]

theorem Rests.length_eq (h : Rests interval ms due) :
    (sentTimes ms).length = (answeredTimes ms).length := by
  induction h with
  | blank => rfl
  | answered _ _ _ _ ih =>
    rw [sentTimes_concat_answered, sentTimes_concat_sent, answeredTimes_concat_answered,
      answeredTimes_concat_sent, List.length_append, List.length_append, ih]
    rfl

/-- What is next is due by the interval after the last answer, or at any time if there is none. -/
theorem Rests.due_eq (h : Rests interval ms due) :
    due = ((answeredTimes ms).getLast?.map (· + interval)).getD 0 := by
  cases h with
  | blank => rfl
  | answered => rw [answeredTimes_concat_answered, List.getLast?_concat]; rfl

theorem Spaced.concat_sent (hs : Spaced interval ms) (hms : Rests interval ms due)
    (ht : due ≤ t) : Spaced interval (ms ++ [.sent t]) := by
  intro n t' hn
  rw [sentTimes_concat_sent] at hn
  rw [answeredTimes_concat_sent]
  rcases Nat.lt_trichotomy (n + 1) (sentTimes ms).length with hlt | heq | hgt
  · rw [List.getElem?_append_left hlt] at hn
    exact hs n t' hn
  · rw [heq, List.getElem?_concat_length, Option.some.injEq] at hn
    -- The request before is the last one, so that what is due is due after its answer.
    have hlast : n = (answeredTimes ms).length - 1 := by
      rw [← hms.length_eq]
      omega
    have hlt : n < (answeredTimes ms).length := by
      rw [← hms.length_eq]
      omega
    have hdue := hms.due_eq
    rw [List.getLast?_eq_getElem?, ← hlast, List.getElem?_eq_getElem hlt] at hdue
    refine ⟨_, List.getElem?_eq_getElem hlt, ?_⟩
    rw [Option.map_some, Option.getD_some] at hdue
    omega
  · rw [List.getElem?_eq_none] at hn
    · cases hn
    · rw [List.length_append, List.length_singleton]
      exact hgt

theorem Spaced.concat_answered (hs : Spaced interval ms) (t : Nat)
    (result : Except FetchError Response) : Spaced interval (ms ++ [.answered t result]) := by
  intro n t' hn
  rw [sentTimes_concat_answered] at hn
  obtain ⟨t₀, ht₀, hle⟩ := hs n t' hn
  refine ⟨t₀, ?_, hle⟩
  rw [answeredTimes_concat_answered]
  exact (List.getElem?_append_left (List.getElem?_eq_some_iff.mp ht₀).1).trans ht₀

theorem Rests.spaced (h : Rests interval ms due) : Spaced interval ms := by
  induction h with
  | blank =>
    intro n t' hn
    cases hn
  | answered hms hdue _ result ih => exact (ih.concat_sent hms hdue).concat_answered _ result

theorem Pace.spaced {now : Nat} {p : Option Phase} (h : Pace interval now p ms) :
    Spaced interval ms := by
  cases h with
  | absent | pending | spawned => exact Rests.blank.spaced
  | fetching hms hdue _ => exact hms.spaced.concat_sent hms hdue
  | waiting hms | ended hms => exact hms.spaced

/-- At most one request of a loop is on its way. -/
theorem Pace.length_le {now : Nat} {p : Option Phase} (h : Pace interval now p ms) :
    (answeredTimes ms).length ≤ (sentTimes ms).length ∧
      (sentTimes ms).length ≤ (answeredTimes ms).length + 1 := by
  cases h with
  | absent | pending | spawned => exact ⟨Nat.le_refl 0, Nat.zero_le 1⟩
  | fetching hms =>
    rw [sentTimes_concat_sent, answeredTimes_concat_sent, List.length_append, hms.length_eq]
    exact ⟨Nat.le_add_right _ 1, Nat.le_refl _⟩
  | waiting hms | ended hms =>
    rw [hms.length_eq]
    exact ⟨Nat.le_refl _, Nat.le_succ _⟩

/-- A loop whose last request has been answered waits for the interval from then on, unless it has
ended. -/
theorem Pace.of_answered {now : Nat} {p : Option Phase} (h : Pace interval now p ms)
    {result : Except FetchError Response} (hlast : ms.getLast? = some (.answered t result)) :
    p = some (.waiting (t + interval)) ∨ p = some .ended := by
  obtain ⟨ms₀, rfl⟩ : ∃ ms₀, ms = ms₀ ++ [.answered t result] :=
    List.getLast?_eq_some_iff.mp hlast
  generalize hms : ms₀ ++ [.answered t result] = ms' at h
  cases h with
  | absent | pending | spawned => simp at hms
  | fetching => simp at hms
  | waiting hrests =>
    subst hms
    have hdue := hrests.due_eq
    rw [answeredTimes_concat_answered, List.getLast?_concat] at hdue
    rw [hdue]
    exact .inl rfl
  | ended => exact .inr rfl

end

end LiveQuery
