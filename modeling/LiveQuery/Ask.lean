import LiveQuery.CommandError
import LiveQuery.Schedule

/-!
# Asking once

An endpoint is asked once, by a query that no registry knows of; its first settled snapshot gives
the answer.
-/

namespace LiveQuery

/-- The fetch of one endpoint, on its way. -/
structure Ask (σ : Type) where
  schedule : Schedule σ
  handle : Handle

namespace Ask

variable {σ : Type}

/-- Asks an endpoint. -/
def start (transport : Transport σ) (wire : σ) (epoch : Timestamp) (s : Settings)
    (endpoint : Endpoint) (flags : FilterFlags) : Except CommandError (Ask σ) := do
  let schedule := Schedule.start transport wire epoch (Client.ofUrl s.api.baseUrl)
  let filter ← flags.filter?.mapError CommandError.filter
  let (handle, registry, effects) ←
    (schedule.registry.make 0 (some endpoint) filter .default true).mapError CommandError.creation
  return ⟨schedule.absorb registry effects, handle⟩

/-- What is known so far. -/
def snapshot (a : Ask σ) : Snapshot :=
  ((a.schedule.registry.queries[a.handle]?).map Query.snapshot).getD .blank

/-- The answer in a settled snapshot. -/
def answer (s : Snapshot) : Except CommandError Response :=
  match s.error, s.response with
  | some e, _ => .error (.fetch e)
  | none, some response => .ok response
  | none, none => .error .noResponse

/-- The answer, if it is there. -/
def answer? (a : Ask σ) : Option (Except CommandError Response) :=
  if a.snapshot.isSettled then some (answer a.snapshot) else none

end Ask
end LiveQuery
