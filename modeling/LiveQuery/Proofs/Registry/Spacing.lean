import LiveQuery.Proofs.Query.Pace
import LiveQuery.Proofs.Registry.Polling

/-!
# Worlds with a clock

A clocked world is a world in which every step has its time: so long after the step before it. What
a task learns of the clock is what the clock shows, and a sleep is over at some time after it is
due. Whatever runs at the same time, each polling loop keeps its pace (`paced_run`): it has one
request on its way at most, waits for the interval after each answer, whether that was a success or
not, and ends only when it has been cancelled.
-/

namespace LiveQuery

/-- A step of a world is a step of every loop there is. -/
theorem World.exists_loopStep {h : Handle} {i : Nat} {w : World} {q : Query} {l : Loop}
    (hq : w.query? h = some q) (hl : q.loops[i]? = some l) (s : World.Step) :
    ∃ q' l', (w.step s).query? h = some q' ∧ q'.loops[i]? = some l' ∧ LoopStep l l' := by
  rcases moves_eq_nil_or h s w with hm | ⟨m, hm⟩
  · exact ⟨q, l, by rw [query?_step hq, hm, Query.run_nil], hl, .stay l⟩
  · obtain ⟨l', hl', hs⟩ := Query.loopStep_move m hl
    exact ⟨q.move m, l', by rw [query?_step hq, hm]; rfl, hl', hs⟩

/-- The step as it is made at a point in time. -/
def World.Step.at_ (now : Nat) : World.Step → World.Step
  | .move h m => .move h (m.at_ now)
  | s => s

/-- A world and the time of the last step. -/
structure Clocked where
  world : World
  now : Nat

namespace Clocked

/-- A step, and how long after the one before it happens. -/
structure Step where
  wait : Nat
  step : World.Step

/-- A world in which nothing has happened. -/
def start (client : Client) : Clocked := ⟨.start client, 0⟩

/-- The clocked world after a step. -/
def step (s : Step) (c : Clocked) : Clocked :=
  ⟨c.world.step (s.step.at_ (c.now + s.wait)), c.now + s.wait⟩

/-- The clocked world after a list of steps. -/
def run : List Step → Clocked → Clocked
  | [], c => c
  | s :: ss, c => run ss (c.step s)

@[simp] theorem run_nil (c : Clocked) : c.run [] = c := rfl

@[simp] theorem run_cons (s : Step) (ss : List Step) (c : Clocked) :
    c.run (s :: ss) = (c.step s).run ss := rfl

theorem run_append (ss ts : List Step) (c : Clocked) : c.run (ss ++ ts) = (c.run ss).run ts := by
  induction ss generalizing c with
  | nil => rfl
  | cons s ss ih => exact ih (c.step s)

/-- Steps that are made at the time of the clock one after the other take no time. -/
theorem run_at_once {ss : List World.Step} {c : Clocked} (hss : ∀ s ∈ ss, s.at_ c.now = s) :
    c.run (ss.map fun s => ⟨0, s⟩) = ⟨c.world.run ss, c.now⟩ := by
  induction ss generalizing c with
  | nil => rfl
  | cons s ss ih =>
    have hstep : c.step ⟨0, s⟩ = ⟨c.world.step s, c.now⟩ := by
      rw [step, Nat.add_zero, hss s (List.mem_cons_self ..)]
    have hrest := ih (c := ⟨c.world.step s, c.now⟩) fun s hs => hss s (List.mem_cons_of_mem _ hs)
    rw [List.map_cons, run_cons, hstep, hrest]
    rfl

/-- What happens in the world in a run. -/
def steps : List Step → Clocked → List World.Step
  | [], _ => []
  | s :: ss, c => s.step.at_ (c.now + s.wait) :: steps ss (c.step s)

theorem world_run (ss : List Step) (c : Clocked) :
    (c.run ss).world = c.world.run (c.steps ss) := by
  induction ss generalizing c with
  | nil => rfl
  | cons s ss ih => exact ih (c.step s)

/-- The mark that a step leaves of a loop of a query. -/
def mark? (h : Handle) (i : Nat) (s : Step) (c : Clocked) : Option Mark :=
  match c.world.query? h, c.world.moves h (s.step.at_ (c.now + s.wait)) with
  | some q, [m] => m.mark? i (c.now + s.wait) q
  | _, _ => none

/-- What a loop of a query does in a run. -/
def marks (h : Handle) (i : Nat) : List Step → Clocked → List Mark
  | [], _ => []
  | s :: ss, c => (c.mark? h i s).toList ++ marks h i ss (c.step s)

/-- The phase of a loop of a query, if the loop is there. -/
def phase? (h : Handle) (i : Nat) (c : Clocked) : Option Phase :=
  (c.world.query? h).bind fun q => q.phase? i

/-- A move that a step is for a query is one of the time of the step. -/
theorem at_of_moves {h : Handle} {s : World.Step} {w : World} {now : Nat} {m : Move}
    (hm : w.moves h (s.at_ now) = [m]) : m.at_ now = m := by
  have hmove := World.move?_of_moves hm
  cases s with
  | move g n =>
    cases hmove
    cases n <;> rfl
  | part k =>
    obtain ⟨p, -, hp⟩ := Option.bind_eq_some_iff.mp hmove
    cases p <;> cases hp <;> rfl
  | call | rearrange => cases hmove

/-- What a step does to a loop, where the query has an interval. -/
theorem loopMark_step {h : Handle} {c : Clocked} {interval : Nat}
    (ho : ∀ q, c.world.query? h = some q → q.options.pollIntervalMs = interval) (i : Nat)
    (s : Step) :
    LoopMark interval (c.step s).now (c.phase? h i) (c.mark? h i s) ((c.step s).phase? h i) := by
  cases hq : c.world.query? h with
  | none =>
    have hmark : c.mark? h i s = none := by simp [mark?, hq]
    have hphase : (c.step s).phase? h i = none := by
      simp only [phase?, Option.bind_eq_none_iff]
      intro q hs
      obtain ⟨id, e, f, o, rfl⟩ := World.query?_step_of_none hq hs
      rfl
    rw [hmark, hphase, phase?, hq]
    exact .stay none
  | some q =>
    have hstep := World.query?_step (s := s.step.at_ (c.now + s.wait)) hq
    have hphase : (c.step s).phase? h i =
        (q.run (c.world.moves h (s.step.at_ (c.now + s.wait)))).phase? i := by
      simp only [phase?, step, hstep, Option.bind_some]
    rw [hphase, phase?, hq, Option.bind_some]
    rcases World.moves_eq_nil_or h (s.step.at_ (c.now + s.wait)) c.world with hm | ⟨m, hm⟩
    · have hmark : c.mark? h i s = none := by simp [mark?, hq, hm]
      rw [hmark, hm]
      exact .stay _
    · have hmark : c.mark? h i s = m.mark? i (c.now + s.wait) q := by simp [mark?, hq, hm]
      have hloop := Query.loopMark_move m (c.now + s.wait) q i
      rw [at_of_moves hm, ho q hq] at hloop
      rw [hmark, hm]
      exact hloop

/-- Every run keeps the pace of every loop. -/
theorem paced_run {h : Handle} {c : Clocked} {interval i : Nat} {ms : List Mark}
    (hp : Pace interval c.now (c.phase? h i) ms) (ss : List Step)
    (ho : ∀ q, (c.run ss).world.query? h = some q → q.options.pollIntervalMs = interval) :
    Pace interval (c.run ss).now ((c.run ss).phase? h i) (ms ++ c.marks h i ss) := by
  induction ss generalizing c ms with
  | nil =>
    rw [marks, List.append_nil]
    exact hp
  | cons s ss ih =>
    have ho' : ∀ q, c.world.query? h = some q → q.options.pollIntervalMs = interval := by
      intro q hq
      rw [← ho _ (by rw [world_run]; exact World.query?_run hq), Query.options_run]
    rw [marks, ← List.append_assoc]
    exact ih ((hp.mono (Nat.le_add_right _ _)).step (loopMark_step ho' i s)) ho

/-- Whatever runs at the same time: of a polling loop one request at most is on its way. The request
after any other is sent no earlier than the interval after that was answered. The loop ends only if
it has been cancelled before, in a step that answers nothing of it; and as long as it has not been
cancelled it waits for the interval after every answer, whatever that was, and begins its next
request when it looks about from then on. -/
theorem requests_spaced {client : Client} {ss : List Step} {h : Handle} {i : Nat} {q : Query}
    {l : Loop} (hq : ((start client).run ss).world.query? h = some q)
    (hl : q.loops[i]? = some l) :
    let c := (start client).run ss
    let marks := (start client).marks h i ss
    let interval := q.options.pollIntervalMs
    (sentTimes marks).length ≤ (answeredTimes marks).length + 1 ∧
    (∀ n t', (sentTimes marks)[n + 1]? = some t' →
      ∃ t, (answeredTimes marks)[n]? = some t ∧ t + interval ≤ t') ∧
    (l.phase = .ended → l.cancelled = true) ∧
    (∀ s, l.phase ≠ .ended → (c.step s).phase? h i = some .ended →
      l.cancelled = true ∧ c.mark? h i s = none) ∧
    (∀ t result, marks.getLast? = some (.answered t result) → l.cancelled = false →
      l.phase = .waiting (t + interval) ∧
      ∀ wait, t + interval ≤ c.now + wait →
        (c.step ⟨wait, .move h (.wake i 0)⟩).phase? h i = some .fetching) := by
  intro c marks interval
  have hquery : c.world.query? h = some q := hq
  have hphase : c.phase? h i = some l.phase := by
    simp only [phase?, hquery, Option.bind_some, Query.phase?, hl, Option.map_some]
  have hpace : Pace interval c.now (some l.phase) marks := by
    rw [← hphase]
    have hstart : Pace interval 0 none [] := .absent
    refine paced_run (c := start client) hstart ss fun q' hq' => ?_
    rw [hq] at hq'
    cases hq'
    rfl
  have htimed : q.WellTimed := by
    rw [world_run] at hq
    exact World.wellTimed hq
  have hended : l.phase = .ended → l.cancelled = true := by
    intro hp
    rw [← Bool.not_eq_false, ← Query.isCancelled_eq hl]
    exact fun hc => htimed.not_ended i hc ((Query.phase_eq hl).trans hp)
  refine ⟨hpace.length_le.2, hpace.spaced, hended, ?_, ?_⟩
  · intro s hgoing hp
    obtain ⟨q', l', hq', hl', hs⟩ := World.exists_loopStep hquery hl (s.step.at_ (c.now + s.wait))
    have hp' : l'.phase = .ended := by
      simpa only [phase?, step, hq', Option.bind_some, Query.phase?, hl', Option.map_some,
        Option.some.injEq] using hp
    have hinterval : ∀ q', c.world.query? h = some q' → q'.options.pollIntervalMs = interval := by
      simp [hquery, interval]
    have hloop := loopMark_step hinterval i s
    rw [hp, hphase] at hloop
    exact ⟨hs.cancelled_of_ended hgoing hp', hloop.eq_none_of_ended (by simpa using hgoing)⟩
  · intro t result hlast hc
    have hwaiting : l.phase = .waiting (t + interval) := by
      rcases hpace.of_answered hlast with hp | hp
      · exact Option.some.inj hp
      · rw [hended (Option.some.inj hp)] at hc
        cases hc
    refine ⟨hwaiting, fun wait hwait => ?_⟩
    have hwoken : (c.step ⟨wait, .move h (.wake i 0)⟩).world.query? h =
        some (q.move (.wake i (c.now + wait))) := by
      rw [step, World.query?_step_of_move? (m := .wake i (c.now + wait)) rfl, if_pos rfl,
        hquery, Option.map_some]
    rw [phase?, hwoken, Option.bind_some]
    exact Query.phase?_wake ((Query.phase_eq hl).trans hwaiting)
      ((Query.isCancelled_eq hl).trans hc) hwait

/-- A query that polls every second is made and its loop sends a request, which fails after 300 ms;
then a second passes. -/
def failedOnce : List Step :=
  [⟨0, .call (.make 0 (some EndpointName.flow.endpoint) .empty ⟨1000⟩ true)⟩, ⟨0, .part 0⟩,
    ⟨0, .part 0⟩, ⟨0, .part 0⟩, ⟨0, .move 0 (.beginLoop 0)⟩,
    ⟨300, .move 0 (.settleLoop 0 (.error (.transport "refused")) ⟨0, 0⟩ 0)⟩,
    ⟨1000, .move 0 (.wake 0 0)⟩]

/-- After the failure the loop waits for a second, and then sends its next request. -/
theorem requests_spaced_failed_once :
    (∃ q l, ((start default).run (failedOnce.take 6)).world.query? 0 = some q ∧
      q.loops[0]? = some l ∧ l.phase = .waiting 1300) ∧
    ∃ t, (answeredTimes ((start default).marks 0 0 failedOnce))[0]? = some t ∧ t + 1000 ≤ 1300 := by
  constructor
  · have hq : ((start default).run (failedOnce.take 6)).world.query? 0 = some _ := rfl
    obtain ⟨-, -, -, -, hwaiting⟩ := requests_spaced (i := 0) hq rfl
    exact ⟨_, _, hq, rfl, (hwaiting 300 _ rfl rfl).1⟩
  · have hq : ((start default).run failedOnce).world.query? 0 = some _ := rfl
    obtain ⟨-, hspaced, -⟩ := requests_spaced (i := 0) hq rfl
    exact hspaced 0 1300 rfl

end Clocked
end LiveQuery
