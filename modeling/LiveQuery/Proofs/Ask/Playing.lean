import LiveQuery.Program.Stage
import LiveQuery.Proofs.Ask.Course

/-!
# A question on a stage

On a stage the steps of a question come in one order: whoever is ready has a turn first, and only
then time passes. `Stage.ask_endsWith` says how the program ends there: as it would in any other
order, unless a signal kills it or the request never settles.
-/

namespace LiveQuery

open Http

namespace Question

variable {σ : Type} {c : Question σ} {filter : Filter} {d : Schedule σ}

/-- When only one is ready, and makes nobody else ready, everybody's turn is that one's. -/
theorem runReady_eq_go {turn : Turn} (hr : d.ready = [turn]) (hn : (c.go (.turn 0) d).ready = []) :
    d.runReady = c.go (.turn 0) d := by
  rw [go_turn_of_ready hr] at hn ⊢
  rw [Schedule.runReady]
  split
  case h_1 hnil =>
    rw [hr] at hnil
    cases hnil
  case h_2 first rest hcons =>
    rw [hr] at hcons
    cases hcons
    rw [Schedule.runReady]
    split
    case h_1 => rfl
    case h_2 hcons =>
      rw [hn] at hcons
      cases hcons

end Question

theorem Schedule.Dispatched.ready {σ : Type} {q : Query} {delivery : Delivery} {d : Schedule σ}
    (h : Schedule.Dispatched q delivery d) : d.ready = [] := by
  cases h with
  | atOnce at_ h => exact h.ready
  | later due h => exact h.ready
  | unknown h => exact h.ready

namespace Stage

/-- A question on a stage, where a request whose end nobody knows never settles. -/
def question (s : Settings) (a : QueryArguments) (server : ScriptedServer) :
    Question ScriptedServer :=
  ⟨transport s, server, epoch, s, a.endpoint.endpoint, a.filter, a.json, .error default⟩

theorem holds_collect {q : Query} {ready : List Turn} {timers : List Timer}
    {awaiting : List (Task × Request)} {sent : List Request} {d : Schedule ScriptedServer}
    (h : d.Holds q ready timers awaiting sent) (pending : Signals) :
    (collect d pending).1.Holds q ready timers awaiting sent :=
  ⟨h.queries, h.ready, h.timers, h.awaiting, h.asked⟩

variable {c : Question ScriptedServer} {filter : Filter} {d : Schedule ScriptedServer}

/-- A play ends at once with an answer that is there when nobody is ready any more. -/
theorem playAsk_of_answer? {answer : Except CommandError Response}
    (ha : (Ask.mk d.runReady 0).answer? = some answer) :
    (playAsk ⟨d, 0⟩).1 = .result answer := by
  unfold playAsk
  simp only [ha]

/-- A play that waits for a request for ever has no result. -/
theorem playAsk_of_awaited
    (h : d.runReady.Holds (c.asking filter) [] [] [(.first 0, c.request filter)]
      [c.request filter]) (result : Except CommandError Response) :
    (playAsk ⟨d, 0⟩).1 ≠ .result result := by
  have htimers : (collect d.runReady []).1.timers = [] := (holds_collect h []).timers
  unfold playAsk
  simp only [Question.answer?_of_not_isSettled h rfl]
  generalize collect d.runReady [] = collected at htimers ⊢
  obtain ⟨d', pending⟩ := collected
  unfold next?
  simp only at htimers
  rw [htimers]
  cases pending with
  | nil => simp
  | cons first rest => simp

/-- A play that waits for a timer ends with its answer, unless a signal comes first. -/
theorem playAsk_of_timed {due : Nat}
    (h : d.runReady.Holds (c.asking filter) [] [⟨due, c.arrival filter⟩] [] [c.request filter]) :
    (∃ signal, (playAsk ⟨d, 0⟩).1 = .killed signal) ∨
      (playAsk ⟨d, 0⟩).1 =
        .result ((Response.ofOutcome (c.outcome filter)).mapError CommandError.fetch) := by
  have hcollect := holds_collect h []
  unfold playAsk
  simp only [Question.answer?_of_not_isSettled h rfl]
  generalize collect d.runReady [] = collected at hcollect ⊢
  obtain ⟨d', pending⟩ := collected
  replace hcollect : d'.Holds (c.asking filter) [] [⟨due, c.arrival filter⟩] []
    [c.request filter] := hcollect
  -- The timer fires, and the task is told.
  have hfired := Question.arrives_of_timed hcollect (Nat.le_refl due)
  obtain ⟨at_, hsettled⟩ := Question.settles_of_arrived hfired
  have hrun : (d'.fire due).runReady = c.go (.turn 0) (d'.fire due) :=
    Question.runReady_eq_go hfired.ready hsettled.ready
  have hanswer := Question.answer?_of_done hsettled
  have hnext : next? d' pending = some (.timers due) ∨
      ∃ t signal, next? d' pending = some (.signal t signal) := by
    unfold next?
    rw [hcollect.timers]
    cases pending with
    | nil => exact .inl rfl
    | cons first rest =>
      by_cases ht : first.1 ≤ due
      · exact .inr ⟨first.1, first.2, by simp [ht]⟩
      · exact .inl (by simp [ht])
  rcases hnext with hnext | ⟨t, signal, hnext⟩
  · right
    simp only [hnext, hrun, hanswer]
  · left
    exact ⟨signal, by simp only [hnext]⟩

/-- A play whose request settles ends with its answer, unless a signal comes first. -/
theorem playAsk_of_after (h : Schedule.Dispatched (c.asking filter) (c.delivery filter) d.runReady)
    {ms : Nat} {outcome : Outcome} (hd : c.delivery filter = .after ms outcome) :
    (∃ signal, (playAsk ⟨d, 0⟩).1 = .killed signal) ∨
      (playAsk ⟨d, 0⟩).1 = .result ((Response.ofOutcome outcome).mapError CommandError.fetch) := by
  have houtcome : c.outcome filter = outcome := by
    rw [Question.outcome, hd]
    rfl
  rw [hd, ← houtcome] at h
  rw [← houtcome]
  cases h with
  | atOnce at_ hdone =>
    right
    apply playAsk_of_answer?
    exact Question.answer?_of_done hdone
  | later due htimed => exact playAsk_of_timed htimed

/-- A play whose request never settles has no result. -/
theorem playAsk_of_unknown
    (h : Schedule.Dispatched (c.asking filter) (c.delivery filter) d.runReady)
    (hd : c.delivery filter = .unknown) (result : Except CommandError Response) :
    (playAsk ⟨d, 0⟩).1 ≠ .result result := by
  rw [hd] at h
  cases h with
  | unknown hd => exact playAsk_of_awaited hd result

/-- How the program ends on a stage that asks an endpoint once: it fails before it sends anything if
its filter cannot be read; otherwise it ends as the outcome of its request says, unless a signal
kills it or the request never settles. -/
theorem ask_endsWith (s : Settings) (a : QueryArguments) (server : ScriptedServer) :
    match a.filter.filter? with
    | .error e => ask s a server = (.result (.error (.filter e)), server)
    | .ok filter =>
      let request := (Client.ofUrl s.api.baseUrl).request a.endpoint.endpoint filter
      (∀ ms outcome, (transport s request server).1 = .after ms outcome →
        (∃ signal, (ask s a server).1 = .killed signal) ∨
          ∃ result, (ask s a server).1 = .result result ∧ outcome.EndsWith a.json result) ∧
      ((transport s request server).1 = .unknown → ∀ result, (ask s a server).1 ≠ .result result) :=
    by
  cases hf : a.filter.filter? with
  | error e =>
    have hstart : Ask.start (transport s) server epoch s a.endpoint.endpoint a.filter =
      .error (.filter e) := (question s a server).start_of_error hf
    unfold ask
    rw [hstart]
  | ok filter =>
    obtain ⟨d, hstart, hd, ht, hw⟩ := (question s a server).start_of_ok hf
    replace hstart : Ask.start (transport s) server epoch s a.endpoint.endpoint a.filter =
      .ok ⟨d, 0⟩ := hstart
    have hask : (ask s a server).1 = (playAsk ⟨d, 0⟩).1.map (Response.render a.json) := by
      unfold ask
      rw [hstart]
    have hsent := Question.dispatched_of_spawned hd ht hw
    rw [← Question.runReady_eq_go hd.ready hsent.ready] at hsent
    constructor
    · intro ms outcome hdelivery
      rw [hask]
      rcases playAsk_of_after hsent hdelivery with ⟨signal, hkilled⟩ | hresult
      · left
        exact ⟨signal, by rw [hkilled]; rfl⟩
      · right
        exact ⟨_, by rw [hresult]; rfl, Outcome.endsWith a.json outcome⟩
    · intro hdelivery result hresult
      rw [hask] at hresult
      cases hplay : (playAsk ⟨d, 0⟩).1 with
      | result r => exact playAsk_of_unknown hsent hdelivery r hplay
      | killed by_ =>
        rw [hplay] at hresult
        cases hresult
      | waiting =>
        rw [hplay] at hresult
        cases hresult

end Stage
end LiveQuery
