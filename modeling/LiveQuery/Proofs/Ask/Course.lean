import LiveQuery.Ask

/-!
# The course of a question

A command that asks an endpoint once makes a query, whose task sends the request, and looks at what
the query knows until that is settled. Between any two of its looks the task has a turn, time
passes, or the request settles whose end nobody knew when it was sent. Every schedule is a list of
such steps, and `Question.run` plays it on the schedule of the program itself.

However the steps come, the question goes through the stages of `Question.Progress` in order:
`Progress.go` says that a step leaves it at its stage or takes it on to the next ones. From this
follows what `Question.answered` says: the request is sent once, and what the command returns is
what the outcome of that request means.
-/

namespace LiveQuery

/-- The outcome of a request; of one whose end is not known when it is sent, the outcome that comes
late. -/
def Delivery.outcome (late : Outcome) : Delivery → Outcome
  | .after _ outcome => outcome
  | .unknown => late

/-- How a command ends that has asked, by the outcome of its request. -/
inductive Outcome.EndsWith (compact : Bool) : Outcome → Except CommandError String → Prop
  | noContent {r : Reply} (hs : r.status = 204) :
    EndsWith compact (.ok r) (.ok ((Response.noContent r).render compact))
  | json {r : Reply} {v : Json} (hs : r.status = 200)
    (hv : Json.ofGlyphs? (Glyph.ofBytes r.body) = .ok v) :
    EndsWith compact (.ok r) (.ok ((Response.json v).render compact))
  | undecodable {r : Reply} {e : Json.Error} (hs : r.status = 200)
    (he : Json.ofGlyphs? (Glyph.ofBytes r.body) = .error e) :
    EndsWith compact (.ok r) (.error (.fetch (.decode e.message)))
  | refused {r : Reply} (hs : r.status ≠ 200) (hs' : r.status ≠ 204) :
    EndsWith compact (.ok r) (.error (.fetch (.http r.status r.statusText)))
  | failed (e : FetchError) : EndsWith compact (.error e) (.error (.fetch e))

/-- An endpoint is to be asked once. -/
structure Question (σ : Type) where
  transport : Transport σ
  wire : σ
  epoch : Timestamp
  settings : Settings
  endpoint : Endpoint
  flags : FilterFlags
  /-- The answer is to be printed on one line. -/
  compact : Bool
  /-- What comes of the request if the transport does not know it when it is sent. -/
  late : Outcome

/-- Where a command is that asks once. -/
inductive AskPhase where
  /-- It has not made its query yet. -/
  | making
  | looking (h : Handle)
  | returned (result : Except CommandError String)

/-- A command that asks once, and what runs beside it. -/
structure Asking (σ : Type) where
  schedule : Schedule σ
  phase : AskPhase

/-- What happens in one piece. -/
inductive Asking.Step where
  /-- The command makes its query. -/
  | make
  /-- Of those who are ready, the one at a place has a turn. -/
  | turn (k : Nat)
  /-- Time passes, and timers fire. -/
  | pass (ms : Nat)
  /-- Of the requests whose end nobody knew, the one at a place settles. -/
  | deliver (k : Nat)
  /-- The command looks at its query. -/
  | look

/-- The requests that have been sent. -/
def Schedule.asked {σ : Type} (d : Schedule σ) : List Request := d.sent.toList.map Sent.request

namespace Question

variable {σ : Type} (c : Question σ)

/-- The client of the question. -/
def client : Client := .ofUrl c.settings.api.baseUrl

/-- Nothing has happened yet. -/
def start : Asking σ := ⟨.start c.transport c.wire c.epoch c.client, .making⟩

/-- The command makes its query. -/
def make (a : Asking σ) : Asking σ :=
  match Ask.start c.transport c.wire c.epoch c.settings c.endpoint c.flags with
  | .error e => { a with phase := .returned (.error e) }
  | .ok started => ⟨started.schedule, .looking started.handle⟩

/-- The command looks at its query, and returns if there is an answer. -/
def look (h : Handle) (a : Asking σ) : Asking σ :=
  match (Ask.mk a.schedule h).answer? with
  | none => a
  | some answer => { a with phase := .returned (answer.map (Response.render c.compact)) }

/-- Something runs beside the command. -/
def go (e : Asking.Step) (d : Schedule σ) : Schedule σ :=
  match e with
  | .turn k =>
    match d.ready[k]? with
    | none => d
    | some turn => Schedule.run turn { d with ready := d.ready.eraseIdx k }
  | .pass ms => d.fire (d.now + ms)
  | .deliver k =>
    match d.awaiting[k]? with
    | none => d
    | some (t, _) => d.deliver t c.late
  | .make | .look => d

/-- The command after a step. A step of it that is not its next one changes nothing, and when it has
returned nothing goes on. -/
def step (e : Asking.Step) (a : Asking σ) : Asking σ :=
  match a.phase, e with
  | .making, .make => c.make a
  | .looking h, .look => c.look h a
  | .looking _, e => { a with schedule := c.go e a.schedule }
  | _, _ => a

/-- The command after a list of steps. -/
def run : List Asking.Step → Asking σ → Asking σ
  | [], a => a
  | e :: es, a => run es (c.step e a)

section Stages

variable (filter : Filter)

/-- The request that is to be sent. -/
def request : Request := c.client.request c.endpoint filter

/-- What the transport says of the request. -/
def delivery : Delivery := (c.transport (c.request filter) c.wire).1

/-- The outcome of the request. -/
def outcome : Outcome := (c.delivery filter).outcome c.late

/-- What the command comes to. -/
def result : Except CommandError String :=
  ((Response.ofOutcome (c.outcome filter)).mapError CommandError.fetch).map
    (Response.render c.compact)

/-- The query as it is made. -/
def fresh : Query := .fresh 0 c.client c.endpoint filter .default

/-- The query with its request on its way. -/
def asking : Query := (c.fresh filter).beginDirect

/-- The query when its request has settled. -/
def done (at_ : Timestamp) : Query :=
  (c.asking filter).settleDirect (Response.ofOutcome (c.outcome filter)) at_

/-- The task has the turn in which its request settles. -/
def arrival : Turn := .task (.first 0) (some (c.outcome filter))

end Stages
end Question

/-- The only query of a schedule, who is ready on it, which timers are set, who waits for a request,
and which requests have been sent. -/
structure Schedule.Holds {σ : Type} (q : Query) (ready : List Turn) (timers : List Timer)
    (awaiting : List (Task × Request)) (sent : List Request) (d : Schedule σ) : Prop where
  queries : d.registry.queries = [q]
  ready : d.ready = ready
  timers : d.timers = timers
  awaiting : d.awaiting = awaiting
  asked : d.asked = sent

namespace Question

/-- How far a question has come. -/
inductive Progress {σ : Type} (c : Question σ) (filter : Filter) (d : Schedule σ) : Prop
  /-- The task of the query has not had a turn. -/
  | spawned (h : d.Holds (c.fresh filter) [.task (.first 0) none] [] [] [])
    (ht : d.transport = c.transport) (hw : d.wire = c.wire)
  /-- The request settles when a timer fires. -/
  | timed (due : Nat)
    (h : d.Holds (c.asking filter) [] [⟨due, c.arrival filter⟩] [] [c.request filter])
  /-- Nobody knows when the request settles. -/
  | awaited
    (h : d.Holds (c.asking filter) [] [] [(.first 0, c.request filter)] [c.request filter])
    (hl : c.outcome filter = c.late)
  /-- The request has come to its end, and the task does not know it yet. -/
  | arrived (h : d.Holds (c.asking filter) [c.arrival filter] [] [] [c.request filter])
  | settled (at_ : Timestamp)
    (h : d.Holds (c.done filter at_) [] [] [] [c.request filter])

end Question

/-! ## What the steps of a schedule do -/

namespace Schedule

variable {σ : Type} {d : Schedule σ} {q : Query} {ready : List Turn} {timers : List Timer}
  {awaiting : List (Task × Request)} {sent : List Request}

theorem Holds.getElem?_queries (h : d.Holds q ready timers awaiting sent) :
    d.registry.queries[0]? = some q := by
  rw [h.queries]
  rfl

theorem Holds.put (h : d.Holds q ready timers awaiting sent) (q' : Query) :
    (d.put 0 q').Holds q' ready timers awaiting sent := by
  refine ⟨?_, h.ready, h.timers, h.awaiting, h.asked⟩
  show d.registry.queries.set 0 q' = [q']
  rw [h.queries]
  rfl

/-- What is reported beside it does not count. -/
theorem Holds.report (h : d.Holds q ready timers awaiting sent) (q' : Query)
    (result : Except FetchError Response) :
    (d.report q' result).Holds q ready timers awaiting sent := by
  cases result with
  | ok response => exact ⟨h.queries, h.ready, h.timers, h.awaiting, h.asked⟩
  | error e => exact ⟨h.queries, h.ready, h.timers, h.awaiting, h.asked⟩

theorem Holds.settle (h : d.Holds q ready timers awaiting sent) (outcome : Outcome) :
    (d.settle (.first 0) q outcome).Holds (q.settleDirect (Response.ofOutcome outcome) d.clock)
      ready timers awaiting sent :=
  (h.put _).report q _

theorem Holds.send (h : d.Holds q ready timers awaiting sent) (q' : Query) :
    (d.send q').2.Holds q ready timers awaiting (sent ++ [q'.request]) := by
  refine ⟨h.queries, h.ready, h.timers, h.awaiting, ?_⟩
  show (d.sent.push ⟨d.now, q'.request⟩).toList.map Sent.request = _
  rw [Array.toList_push, List.map_append, ← h.asked]
  rfl

/-- What a schedule comes to that has sent the request of its only query, by what the transport has
said: the request is settled, or is waited for. -/
inductive Dispatched (q : Query) : Delivery → Schedule σ → Prop
  | atOnce {outcome : Outcome} {d : Schedule σ} (at_ : Timestamp)
    (h : d.Holds (q.settleDirect (Response.ofOutcome outcome) at_) [] [] [] [q.request]) :
    Dispatched q (.after 0 outcome) d
  | later {ms : Nat} {outcome : Outcome} {d : Schedule σ} (due : Nat)
    (h : d.Holds q [] [⟨due, .task (.first 0) (some outcome)⟩] [] [q.request]) :
    Dispatched q (.after (ms + 1) outcome) d
  | unknown {d : Schedule σ} (h : d.Holds q [] [] [(.first 0, q.request)] [q.request]) :
    Dispatched q .unknown d

theorem Dispatched.asked {delivery : Delivery} (h : Dispatched q delivery d) :
    d.asked = [q.request] := by
  cases h with
  | atOnce at_ h => exact h.asked
  | later due h => exact h.asked
  | unknown h => exact h.asked

theorem Holds.dispatch (h : d.Holds q [] [] [] []) :
    Dispatched q (d.transport q.request d.wire).1 (d.dispatch (.first 0) q) := by
  have hsend : (d.send q).2.Holds q [] [] [] [q.request] := h.send q
  show Dispatched q (d.send q).1 _
  unfold Schedule.dispatch
  generalize d.send q = sent at hsend ⊢
  obtain ⟨delivery, d'⟩ := sent
  replace hsend : d'.Holds q [] [] [] [q.request] := hsend
  cases delivery with
  | unknown =>
    refine .unknown ⟨hsend.queries, hsend.ready, hsend.timers, ?_, hsend.asked⟩
    show d'.awaiting ++ [_] = _
    rw [hsend.awaiting]
    rfl
  | after ms outcome =>
    cases ms with
    | zero => exact .atOnce _ (hsend.settle outcome)
    | succ ms =>
      refine .later (d'.now + (ms + 1))
        ⟨hsend.queries, hsend.ready, ?_, hsend.awaiting, hsend.asked⟩
      show d'.timers ++ [_] = _
      rw [hsend.timers]
      rfl

/-- The task of the query has its first turn: it sends the request. -/
theorem Holds.run_first (h : d.Holds q [] [] [] []) :
    Dispatched q.beginDirect (d.transport q.beginDirect.request d.wire).1
      (Schedule.run (.task (.first 0) none) d) := by
  unfold Schedule.run runTask
  simp only [h.getElem?_queries]
  exact (h.put q.beginDirect).dispatch

/-- The task of the query has a turn with the outcome of its request: it settles. -/
theorem Holds.run_arrival (h : d.Holds q ready timers awaiting sent) (outcome : Outcome) :
    (Schedule.run (.task (.first 0) (some outcome)) d).Holds
      (q.settleDirect (Response.ofOutcome outcome) d.clock) ready timers awaiting sent := by
  unfold Schedule.run runTask
  simp only [h.getElem?_queries]
  exact h.settle outcome

/-- Who was the only one ready has a turn, and nobody is ready. -/
theorem Holds.take {turn : Turn} (h : d.Holds q [turn] timers awaiting sent) :
    ({ d with ready := [] } : Schedule σ).Holds q [] timers awaiting sent :=
  ⟨h.queries, rfl, h.timers, h.awaiting, h.asked⟩

end Schedule

/-! ## The stages of a question -/

namespace Question

variable {σ : Type} {c : Question σ} {filter : Filter} {d : Schedule σ}

/-- Who is the only one ready has a turn. -/
theorem go_turn_of_ready {turn : Turn} (hr : d.ready = [turn]) :
    c.go (.turn 0) d = Schedule.run turn { d with ready := [] } := by
  simp only [go, hr, List.getElem?_cons_zero, List.eraseIdx_cons_zero]

/-- Where nobody is ready, nobody has a turn. -/
theorem go_turn_of_getElem? {k : Nat} (hr : d.ready[k]? = none) : c.go (.turn k) d = d := by
  simp only [go, hr]

/-- Where no request is waited for, none settles. -/
theorem go_deliver_of_getElem? {k : Nat} (ha : d.awaiting[k]? = none) :
    c.go (.deliver k) d = d := by
  simp only [go, ha]

/-- The task sends the request when it has its first turn. -/
theorem dispatched_of_spawned (h : d.Holds (c.fresh filter) [.task (.first 0) none] [] [] [])
    (ht : d.transport = c.transport) (hw : d.wire = c.wire) :
    Schedule.Dispatched (c.asking filter) (c.delivery filter) (c.go (.turn 0) d) := by
  have hdelivery : c.delivery filter = (d.transport (c.request filter) d.wire).1 := by
    rw [ht, hw]
    rfl
  rw [go_turn_of_ready h.ready, hdelivery]
  exact h.take.run_first

/-- When the timer fires, the task is told. -/
theorem arrives_of_timed {due t : Nat}
    (h : d.Holds (c.asking filter) [] [⟨due, c.arrival filter⟩] [] [c.request filter])
    (hdue : due ≤ t) :
    (d.fire t).Holds (c.asking filter) [c.arrival filter] [] [] [c.request filter] := by
  refine ⟨h.queries, ?_, ?_, h.awaiting, h.asked⟩
  · show d.ready ++ (d.timers.filter _).map Timer.turn = _
    rw [h.ready, h.timers]
    simp [hdue]
  · show d.timers.filter _ = []
    rw [h.timers]
    simp [hdue]

/-- When the request settles whose end nobody knew, the task is told. -/
theorem arrives_of_awaited
    (h : d.Holds (c.asking filter) [] [] [(.first 0, c.request filter)] [c.request filter])
    (hl : c.outcome filter = c.late) :
    (c.go (.deliver 0) d).Holds (c.asking filter) [c.arrival filter] [] [] [c.request filter] := by
  have hgo : c.go (.deliver 0) d = d.deliver (.first 0) c.late := by
    simp only [go, h.awaiting, List.getElem?_cons_zero]
  rw [hgo]
  refine ⟨h.queries, ?_, h.timers, ?_, h.asked⟩
  · show d.ready ++ [_] = _
    rw [h.ready, arrival, hl]
    rfl
  · show d.awaiting.filter _ = []
    rw [h.awaiting]
    simp

/-- A task that is told has a turn, and what the query knows is settled. -/
theorem settles_of_arrived
    (h : d.Holds (c.asking filter) [c.arrival filter] [] [] [c.request filter]) :
    ∃ at_, (c.go (.turn 0) d).Holds (c.done filter at_) [] [] [] [c.request filter] := by
  rw [go_turn_of_ready h.ready]
  exact ⟨_, h.take.run_arrival (c.outcome filter)⟩

/-- A question whose request has just been sent is settled, or waits for it. -/
theorem Progress.of_dispatched (h : Schedule.Dispatched (c.asking filter) (c.delivery filter) d) :
    c.Progress filter d := by
  have houtcome : c.outcome filter = (c.delivery filter).outcome c.late := rfl
  generalize c.delivery filter = delivery at h houtcome
  cases h with
  | atOnce at_ h => exact .settled at_ (by rwa [done, houtcome])
  | later due h => exact .timed due (by rwa [arrival, houtcome])
  | unknown h => exact .awaited h houtcome

namespace Progress

/-- Somebody has a turn. -/
theorem turn (h : c.Progress filter d) (k : Nat) : c.Progress filter (c.go (.turn k) d) := by
  by_cases hr : d.ready[k]? = none
  · rw [go_turn_of_getElem? hr]
    exact h
  · cases h with
    | timed due hd | awaited hd | settled at_ hd => exact absurd (by rw [hd.ready]; rfl) hr
    | spawned hd ht hw =>
      obtain rfl : k = 0 := by
        rw [hd.ready] at hr
        simpa using hr
      exact of_dispatched (dispatched_of_spawned hd ht hw)
    | arrived hd =>
      obtain rfl : k = 0 := by
        rw [hd.ready] at hr
        simpa using hr
      obtain ⟨at_, hdone⟩ := settles_of_arrived hd
      exact .settled at_ hdone

/-- The clock goes on, and nothing happens but that a timer fires. -/
theorem fire (h : c.Progress filter d) (t : Nat) : c.Progress filter (d.fire t) := by
  have hnone {q : Query} {ready : List Turn} {awaiting : List (Task × Request)}
      {sent : List Request} (hd : d.Holds q ready [] awaiting sent) :
      (d.fire t).Holds q ready [] awaiting sent := by
    refine ⟨hd.queries, ?_, ?_, hd.awaiting, hd.asked⟩
    · show d.ready ++ (d.timers.filter _).map Timer.turn = ready
      rw [hd.ready, hd.timers]
      simp
    · show d.timers.filter _ = []
      rw [hd.timers]
      rfl
  cases h with
  | spawned hd ht hw => exact .spawned (hnone hd) ht hw
  | awaited hd hl => exact .awaited (hnone hd) hl
  | arrived hd => exact .arrived (hnone hd)
  | settled at_ hd => exact .settled at_ (hnone hd)
  | timed due hd =>
    by_cases hdue : due ≤ t
    · exact .arrived (arrives_of_timed hd hdue)
    · refine .timed due ⟨hd.queries, ?_, ?_, hd.awaiting, hd.asked⟩
      · show d.ready ++ (d.timers.filter _).map Timer.turn = _
        rw [hd.ready, hd.timers]
        simp [hdue]
      · show d.timers.filter _ = _
        rw [hd.timers]
        simp [Nat.lt_of_not_le hdue]

/-- A request settles whose end nobody knew. -/
theorem deliver (h : c.Progress filter d) (k : Nat) :
    c.Progress filter (c.go (.deliver k) d) := by
  by_cases ha : d.awaiting[k]? = none
  · rw [go_deliver_of_getElem? ha]
    exact h
  · cases h with
    | spawned hd | timed due hd | arrived hd | settled at_ hd =>
      exact absurd (by rw [hd.awaiting]; rfl) ha
    | awaited hd hl =>
      obtain rfl : k = 0 := by
        rw [hd.awaiting] at ha
        simpa using ha
      exact .arrived (arrives_of_awaited hd hl)

/-- Whatever runs beside the command leaves a question at its stage, or takes it on. -/
theorem go (h : c.Progress filter d) (e : Asking.Step) : c.Progress filter (c.go e d) := by
  cases e with
  | turn k => exact h.turn k
  | pass ms => exact h.fire (d.now + ms)
  | deliver k => exact h.deliver k
  | make | look => exact h

end Progress

/-! ## What the command sees -/

theorem snapshot_of_holds {q : Query} {ready : List Turn} {timers : List Timer}
    {awaiting : List (Task × Request)} {sent : List Request}
    (h : d.Holds q ready timers awaiting sent) : (Ask.mk d 0).snapshot = q.snapshot := by
  unfold Ask.snapshot
  simp only [h.getElem?_queries, Option.map_some, Option.getD_some]

/-- When the request has settled, the answer is there. -/
theorem answer?_of_done {at_ : Timestamp} {ready : List Turn} {timers : List Timer}
    {awaiting : List (Task × Request)} {sent : List Request}
    (h : d.Holds (c.done filter at_) ready timers awaiting sent) :
    (Ask.mk d 0).answer? =
      some ((Response.ofOutcome (c.outcome filter)).mapError CommandError.fetch) := by
  unfold Ask.answer?
  rw [snapshot_of_holds h, done]
  cases Response.ofOutcome (c.outcome filter) with
  | ok response => rfl
  | error e => rfl

/-- Before that there is none. -/
theorem answer?_of_not_isSettled {q : Query} {ready : List Turn} {timers : List Timer}
    {awaiting : List (Task × Request)} {sent : List Request}
    (h : d.Holds q ready timers awaiting sent) (hq : q.snapshot.isSettled = false) :
    (Ask.mk d 0).answer? = none := by
  unfold Ask.answer?
  rw [snapshot_of_holds h, hq]
  rfl

/-- An answer is that of the one request that has been sent. -/
theorem Progress.of_answer? (h : c.Progress filter d) {answer : Except CommandError Response}
    (ha : (Ask.mk d 0).answer? = some answer) :
    answer = (Response.ofOutcome (c.outcome filter)).mapError CommandError.fetch ∧
      d.asked = [c.request filter] := by
  have hnone {q : Query} {ready : List Turn} {timers : List Timer}
      {awaiting : List (Task × Request)} {sent : List Request}
      (hd : d.Holds q ready timers awaiting sent) (hq : q.snapshot.isSettled = false) : False := by
    rw [answer?_of_not_isSettled hd hq] at ha
    cases ha
  cases h with
  | spawned hd => exact (hnone hd rfl).elim
  | timed due hd => exact (hnone hd rfl).elim
  | awaited hd => exact (hnone hd rfl).elim
  | arrived hd => exact (hnone hd rfl).elim
  | settled at_ hd =>
    rw [answer?_of_done hd] at ha
    exact ⟨(Option.some.inj ha).symm, hd.asked⟩

/-- At no stage more than the one request has been sent. -/
theorem Progress.asked (h : c.Progress filter d) : d.asked = [] ∨ d.asked = [c.request filter] := by
  cases h with
  | spawned hd => exact .inl hd.asked
  | timed due hd => exact .inr hd.asked
  | awaited hd => exact .inr hd.asked
  | arrived hd => exact .inr hd.asked
  | settled at_ hd => exact .inr hd.asked

/-- When there is nothing more to happen, the answer is there. -/
theorem Progress.answer?_of_idle (h : c.Progress filter d) (hr : d.ready = []) (ht : d.timers = [])
    (ha : d.awaiting = []) :
    (Ask.mk d 0).answer? =
      some ((Response.ofOutcome (c.outcome filter)).mapError CommandError.fetch) := by
  cases h with
  | spawned hd =>
    rw [hd.ready] at hr
    cases hr
  | timed due hd =>
    rw [hd.timers] at ht
    cases ht
  | awaited hd =>
    rw [hd.awaiting] at ha
    cases ha
  | arrived hd =>
    rw [hd.ready] at hr
    cases hr
  | settled at_ hd => exact answer?_of_done hd

/-! ## The course of the command -/

/-- Where a command can be that asks once. -/
inductive Reaches (c : Question σ) : Asking σ → Prop
  | making : Reaches c c.start
  | refused {e : Json.Error} (hf : c.flags.filter? = .error e) :
    Reaches c ⟨c.start.schedule, .returned (.error (.filter e))⟩
  | looking {filter : Filter} {d : Schedule σ} (hf : c.flags.filter? = .ok filter)
    (h : c.Progress filter d) : Reaches c ⟨d, .looking 0⟩
  | returned {filter : Filter} {d : Schedule σ} (hf : c.flags.filter? = .ok filter)
    (hs : d.asked = [c.request filter]) : Reaches c ⟨d, .returned (c.result filter)⟩

theorem start_of_error {e : Json.Error} (hf : c.flags.filter? = .error e) :
    Ask.start c.transport c.wire c.epoch c.settings c.endpoint c.flags = .error (.filter e) := by
  unfold Ask.start
  rw [hf]
  rfl

/-- With a filter the command makes its query, which is the only one. -/
theorem start_of_ok (hf : c.flags.filter? = .ok filter) :
    ∃ d, Ask.start c.transport c.wire c.epoch c.settings c.endpoint c.flags = .ok ⟨d, 0⟩ ∧
      d.Holds (c.fresh filter) [.task (.first 0) none] [] [] [] ∧ d.transport = c.transport ∧
      d.wire = c.wire := by
  unfold Ask.start
  rw [hf]
  exact ⟨_, rfl, ⟨rfl, rfl, rfl, rfl, rfl⟩, rfl, rfl⟩

theorem make_of_error {e : Json.Error} (hf : c.flags.filter? = .error e) (a : Asking σ) :
    c.make a = { a with phase := .returned (.error (.filter e)) } := by
  unfold make
  rw [start_of_error hf]

theorem make_of_ok (hf : c.flags.filter? = .ok filter) (a : Asking σ) :
    ∃ d, c.make a = ⟨d, .looking 0⟩ ∧ d.Holds (c.fresh filter) [.task (.first 0) none] [] [] [] ∧
      d.transport = c.transport ∧ d.wire = c.wire := by
  obtain ⟨d, hstart, hd⟩ := start_of_ok hf
  refine ⟨d, ?_, hd⟩
  unfold make
  rw [hstart]

theorem step_of_returned {d : Schedule σ} {result : Except CommandError String}
    (e : Asking.Step) : c.step e ⟨d, .returned result⟩ = ⟨d, .returned result⟩ := by
  cases e <;> rfl

theorem Reaches.step {a : Asking σ} (h : c.Reaches a) (e : Asking.Step) :
    c.Reaches (c.step e a) := by
  cases h with
  | making =>
    cases e with
    | make =>
      show c.Reaches (c.make c.start)
      cases hf : c.flags.filter? with
      | error e =>
        rw [make_of_error hf]
        exact .refused hf
      | ok filter =>
        obtain ⟨d, hmake, hd, ht, hw⟩ := make_of_ok hf c.start
        rw [hmake]
        exact .looking hf (.spawned hd ht hw)
    | turn | pass | deliver | look => exact .making
  | refused hf =>
    rw [step_of_returned]
    exact .refused hf
  | returned hf hs =>
    rw [step_of_returned]
    exact .returned hf hs
  | @looking filter d hf hp =>
    cases e with
    | look =>
      show c.Reaches (c.look 0 ⟨d, .looking 0⟩)
      unfold look
      cases ha : (Ask.mk d 0).answer? with
      | none => exact .looking hf hp
      | some answer =>
        obtain ⟨rfl, hs⟩ := hp.of_answer? ha
        exact .returned hf hs
    | make => exact .looking hf (hp.go .make)
    | turn k => exact .looking hf (hp.go (.turn k))
    | pass ms => exact .looking hf (hp.go (.pass ms))
    | deliver k => exact .looking hf (hp.go (.deliver k))

theorem Reaches.run {a : Asking σ} (h : c.Reaches a) (es : List Asking.Step) :
    c.Reaches (c.run es a) := by
  induction es generalizing a with
  | nil => exact h
  | cons e es ih => exact ih (h.step e)

/-! ## The end of the course -/

theorem exists_run_of_settled {at_ : Timestamp}
    (h : d.Holds (c.done filter at_) [] [] [] [c.request filter]) :
    ∃ es, (c.run es ⟨d, .looking 0⟩).phase = .returned (c.result filter) := by
  refine ⟨[.look], ?_⟩
  show (c.look 0 ⟨d, .looking 0⟩).phase = _
  unfold look
  simp only [answer?_of_done h]
  rfl

theorem exists_run_of_arrived
    (h : d.Holds (c.asking filter) [c.arrival filter] [] [] [c.request filter]) :
    ∃ es, (c.run es ⟨d, .looking 0⟩).phase = .returned (c.result filter) := by
  obtain ⟨at_, hdone⟩ := settles_of_arrived h
  obtain ⟨es, hes⟩ := exists_run_of_settled hdone
  exact ⟨.turn 0 :: es, hes⟩

theorem exists_run_of_timed {due : Nat}
    (h : d.Holds (c.asking filter) [] [⟨due, c.arrival filter⟩] [] [c.request filter]) :
    ∃ es, (c.run es ⟨d, .looking 0⟩).phase = .returned (c.result filter) := by
  have hdue : due ≤ d.now + due := by omega
  obtain ⟨es, hes⟩ := exists_run_of_arrived (arrives_of_timed h hdue)
  exact ⟨.pass due :: es, hes⟩

theorem exists_run_of_awaited
    (h : d.Holds (c.asking filter) [] [] [(.first 0, c.request filter)] [c.request filter])
    (hl : c.outcome filter = c.late) :
    ∃ es, (c.run es ⟨d, .looking 0⟩).phase = .returned (c.result filter) := by
  obtain ⟨es, hes⟩ := exists_run_of_arrived (arrives_of_awaited h hl)
  exact ⟨.deliver 0 :: es, hes⟩

/-- A command that has made its query can always come to its result. -/
theorem Progress.exists_run (h : c.Progress filter d) :
    ∃ es, (c.run es ⟨d, .looking 0⟩).phase = .returned (c.result filter) := by
  cases h with
  | settled at_ hd => exact exists_run_of_settled hd
  | arrived hd => exact exists_run_of_arrived hd
  | timed due hd => exact exists_run_of_timed hd
  | awaited hd hl => exact exists_run_of_awaited hd hl
  | spawned hd ht hw =>
    have hsent := dispatched_of_spawned hd ht hw
    suffices hrest : ∃ es, (c.run es ⟨c.go (.turn 0) d, .looking 0⟩).phase =
        .returned (c.result filter) by
      obtain ⟨es, hes⟩ := hrest
      exact ⟨.turn 0 :: es, hes⟩
    cases of_dispatched hsent with
    | settled at_ hd => exact exists_run_of_settled hd
    | arrived hd => exact exists_run_of_arrived hd
    | timed due hd => exact exists_run_of_timed hd
    | awaited hd hl => exact exists_run_of_awaited hd hl
    | spawned hd =>
      have hasked := hsent.asked
      rw [hd.asked] at hasked
      cases hasked

/-- A command whose filter cannot be read has not begun, or has failed for that reason; nothing runs
beside it. -/
theorem Reaches.of_error {e : Json.Error} (hf : c.flags.filter? = .error e) {a : Asking σ}
    (h : c.Reaches a) :
    a.schedule = c.start.schedule ∧
      (a.phase = .making ∨ a.phase = .returned (.error (.filter e))) := by
  cases h with
  | making => exact ⟨rfl, .inl rfl⟩
  | refused hf' =>
    obtain rfl : e = _ := Except.error.inj (hf.symm.trans hf')
    exact ⟨rfl, .inr rfl⟩
  | looking hf' =>
    rw [hf] at hf'
    cases hf'
  | returned hf' =>
    rw [hf] at hf'
    cases hf'

theorem Reaches.asked (hf : c.flags.filter? = .ok filter) {a : Asking σ} (h : c.Reaches a) :
    a.schedule.asked = [] ∨ a.schedule.asked = [c.request filter] := by
  cases h with
  | making | refused => exact .inl rfl
  | looking hf' hp =>
    obtain rfl : filter = _ := Except.ok.inj (hf.symm.trans hf')
    exact hp.asked
  | returned hf' hs =>
    obtain rfl : filter = _ := Except.ok.inj (hf.symm.trans hf')
    exact .inr hs

/-- A command has returned with nothing but the result of the one request that it has sent. -/
theorem Reaches.of_returned (hf : c.flags.filter? = .ok filter) {a : Asking σ}
    {result : Except CommandError String} (h : c.Reaches a) (hr : a.phase = .returned result) :
    a.schedule.asked = [c.request filter] ∧ c.result filter = result := by
  cases h with
  | making | looking => cases hr
  | refused hf' =>
    rw [hf] at hf'
    cases hf'
  | returned hf' hs =>
    obtain rfl : filter = _ := Except.ok.inj (hf.symm.trans hf')
    exact ⟨hs, AskPhase.returned.inj hr⟩

/-- A command that looks when there is nothing more to happen returns. -/
theorem Reaches.look_of_idle (hf : c.flags.filter? = .ok filter) {a : Asking σ}
    (h : c.Reaches a) {handle : Handle} (hp : a.phase = .looking handle)
    (hr : a.schedule.ready = []) (ht : a.schedule.timers = []) (ha : a.schedule.awaiting = []) :
    (c.step .look a).phase = .returned (c.result filter) := by
  cases h with
  | making | refused | returned => cases hp
  | @looking filter' d hf' hprogress =>
    obtain rfl : filter = _ := Except.ok.inj (hf.symm.trans hf')
    have hanswer := hprogress.answer?_of_idle hr ht ha
    show (c.look 0 ⟨d, .looking 0⟩).phase = _
    unfold look
    simp only [hanswer]
    rfl

/-- Wherever a command is, it can come to its result. -/
theorem Reaches.exists_run (hf : c.flags.filter? = .ok filter) {a : Asking σ} (h : c.Reaches a) :
    ∃ es, (c.run es a).phase = .returned (c.result filter) := by
  cases h with
  | making =>
    obtain ⟨d, hmake, hd, ht, hw⟩ := make_of_ok hf c.start
    obtain ⟨es, hes⟩ := Progress.exists_run (.spawned hd ht hw)
    refine ⟨.make :: es, ?_⟩
    show (c.run es (c.make c.start)).phase = _
    rw [hmake, hes]
  | refused hf' =>
    rw [hf] at hf'
    cases hf'
  | looking hf' hp =>
    rw [hf] at hf'
    cases hf'
    exact hp.exists_run
  | returned hf' =>
    rw [hf] at hf'
    cases hf'
    exact ⟨[], rfl⟩

end Question

/-! ## How the command ends -/

/-- What the command makes of an outcome is how it is to end. -/
theorem Outcome.endsWith (compact : Bool) (outcome : Outcome) :
    outcome.EndsWith compact
      (((Response.ofOutcome outcome).mapError CommandError.fetch).map
        (Response.render compact)) := by
  cases outcome with
  | error e => exact .failed e
  | ok r =>
    show EndsWith compact (.ok r) (((Response.ofReply r).mapError CommandError.fetch).map _)
    unfold Response.ofReply
    by_cases h200 : r.status = 200
    · rw [if_pos h200]
      cases hv : Json.ofGlyphs? (Glyph.ofBytes r.body) with
      | ok v => exact .json h200 hv
      | error e => exact .undecodable h200 hv
    · rw [if_neg h200]
      by_cases h204 : r.status = 204
      · rw [if_pos h204]
        exact .noContent h204
      · rw [if_neg h204]
        exact .refused h200 h204

namespace Outcome.EndsWith

variable {compact : Bool} {outcome : Outcome} {result : Except CommandError String}

/-- A command fails with nothing but the error of its fetch, in the words for that. -/
theorem of_error (h : outcome.EndsWith compact result) (e : CommandError)
    (he : result = .error e) : ∃ f : FetchError, e = .fetch f ∧ e.message = f.message := by
  cases h with
  | noContent | json => cases he
  | undecodable | refused | failed =>
    cases he
    exact ⟨_, rfl, rfl⟩

/-- A fetch that has settled has left a response or an error. -/
theorem ne_noResponse (h : outcome.EndsWith compact result) : result ≠ .error .noResponse := by
  intro hnone
  obtain ⟨f, hfetch, -⟩ := h.of_error .noResponse hnone
  cases hfetch

/-- A command succeeds exactly on a reply without content, or with a JSON text. -/
theorem isOk_iff (h : outcome.EndsWith compact result) :
    (∃ text, result = .ok text) ↔
      ∃ r, outcome = .ok r ∧ (r.status = 204 ∨
        r.status = 200 ∧ ∃ v, Json.ofGlyphs? (Glyph.ofBytes r.body) = .ok v) := by
  cases h with
  | @noContent r hs => exact iff_of_true ⟨_, rfl⟩ ⟨r, rfl, .inl hs⟩
  | @json r v hs hv => exact iff_of_true ⟨_, rfl⟩ ⟨r, rfl, .inr ⟨hs, v, hv⟩⟩
  | @undecodable r e hs he =>
    refine iff_of_false (by simp) ?_
    rintro ⟨r', hr, hs' | ⟨-, v, hv⟩⟩
    · cases hr
      omega
    · cases hr
      rw [he] at hv
      cases hv
  | @refused r hs hs' =>
    refine iff_of_false (by simp) ?_
    rintro ⟨r', hr, h204 | ⟨h200, -⟩⟩
    · cases hr
      exact hs' h204
    · cases hr
      exact hs h200
  | failed e =>
    refine iff_of_false (by simp) ?_
    rintro ⟨r', hr, -⟩
    cases hr

end Outcome.EndsWith

/-- However the steps come, a command whose filter cannot be read fails for that reason and sends
nothing. Otherwise one request is sent, that of the endpoint with the filter; the command returns
what the outcome of this request means and nothing before it has been sent, succeeds exactly if the
reply has no content or a JSON text, fails with nothing but the error of the fetch, and returns when
there is nothing more to happen. -/
theorem Question.answered {σ : Type} (c : Question σ) (es : List Asking.Step) :
    let a := c.run es c.start
    match c.flags.filter? with
    | .error e =>
      a.schedule.asked = [] ∧ a.schedule.wire = c.wire ∧
      (∀ result, a.phase = .returned result → result = .error (.filter e)) ∧
      ∃ more, (c.run more a).phase = .returned (.error (.filter e))
    | .ok filter =>
      let request := (Client.ofUrl c.settings.api.baseUrl).request c.endpoint filter
      let outcome := (c.transport request c.wire).1.outcome c.late
      (a.schedule.asked = [] ∨ a.schedule.asked = [request]) ∧
      (∀ result, a.phase = .returned result →
        a.schedule.asked = [request] ∧ outcome.EndsWith c.compact result ∧
        ((∃ text, result = .ok text) ↔ ∃ r, outcome = .ok r ∧ (r.status = 204 ∨
          r.status = 200 ∧ ∃ v, Json.ofGlyphs? (Glyph.ofBytes r.body) = .ok v)) ∧
        (∀ e, result = .error e → ∃ f : FetchError, e = .fetch f ∧ e.message = f.message) ∧
        result ≠ .error .noResponse) ∧
      (∀ h, a.phase = .looking h → a.schedule.ready = [] → a.schedule.timers = [] →
        a.schedule.awaiting = [] → ∃ result, (c.step .look a).phase = .returned result) ∧
      ∃ more result, (c.run more a).phase = .returned result := by
  intro a
  have ha : c.Reaches a := Reaches.making.run es
  cases hf : c.flags.filter? with
  | error e =>
    obtain ⟨hschedule, hphase⟩ := ha.of_error hf
    rw [hschedule]
    refine ⟨rfl, rfl, ?_, ?_⟩
    · intro result hresult
      rcases hphase with hphase | hphase
      · rw [hphase] at hresult
        cases hresult
      · rw [hphase] at hresult
        exact (AskPhase.returned.inj hresult).symm
    · rcases hphase with hphase | hphase
      · refine ⟨[.make], ?_⟩
        show (c.step .make a).phase = _
        unfold step
        rw [hphase]
        show (c.make a).phase = _
        rw [make_of_error hf]
      · exact ⟨[], hphase⟩
  | ok filter =>
    refine ⟨?_, ?_, ?_, ?_⟩
    · exact ha.asked hf
    · intro result hresult
      obtain ⟨hasked, rfl⟩ := ha.of_returned hf hresult
      have hends : (c.outcome filter).EndsWith c.compact (c.result filter) :=
        Outcome.endsWith c.compact (c.outcome filter)
      exact ⟨hasked, hends, hends.isOk_iff, hends.of_error, hends.ne_noResponse⟩
    · intro h hphase hready htimers hawaiting
      exact ⟨_, ha.look_of_idle hf hphase hready htimers hawaiting⟩
    · obtain ⟨more, hmore⟩ := ha.exists_run hf
      exact ⟨more, _, hmore⟩

end LiveQuery
