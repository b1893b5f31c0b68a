import LiveQuery.Registry.Basic

/-!
# Visibility watchers

The host tells its visibility over a channel that keeps the latest value only. A watcher is a task
that reads the channel, takes the first value it reads as its baseline, and acts on the registry
whenever a later value differs from the one before it.
-/

namespace LiveQuery

/-- Where the task of a watcher is. -/
inductive WatchPhase where
  /-- It waits for its first turn. -/
  | spawned
  /-- It has acted on this visibility, or begun with it. -/
  | watching (current : Visibility)
  | ended
  deriving DecidableEq, Repr

/-- A watcher and its channel. -/
structure Watcher where
  /-- The latest value of the channel. -/
  value : Visibility
  /-- How many values have been sent. -/
  sent : Nat
  /-- How many of them the task has passed. -/
  seen : Nat
  /-- The host will send no more. -/
  closed : Bool
  /-- The task is to end. -/
  cancelled : Bool
  task : WatchPhase
  deriving DecidableEq, Repr

namespace Watcher

/-- A watcher that has been started on a channel with a value. -/
def start (v : Visibility) : Watcher := ⟨v, 0, 0, false, false, .spawned⟩

/-- Whether the task has ended. -/
def isDone (w : Watcher) : Bool := w.task = .ended

/-- The host sends a value; nobody receives it once the task has ended. -/
def send (v : Visibility) (w : Watcher) : Watcher × Bool :=
  if w.isDone then (w, false) else ({ w with value := v, sent := w.sent + 1 }, true)

/-- The host drops its end of the channel. -/
def close (w : Watcher) : Watcher := { w with closed := true }

/-- Tells the task to end. -/
def cancel (w : Watcher) : Watcher := { w with cancelled := true }

/-- Ends the task where it is. -/
def abort (w : Watcher) : Watcher := { w with task := .ended }

/-- The task has its first turn: what it reads is its baseline. -/
def begin_ (w : Watcher) : Watcher × List Effect :=
  match w.task with
  | .spawned =>
    ({ w with seen := w.sent, task := .watching w.value }, [.notice (.watching w.value)])
  | _ => (w, [])

/-- The task looks about: told to end, it ends; on a value it has not passed, it acts if that
differs from the last one; with nothing more to come, it ends. -/
def observe (w : Watcher) (r : Registry) : Watcher × Registry × List Effect :=
  match w.task with
  | .watching current =>
    if w.cancelled then ({ w with task := .ended }, r, [.notice .watchStopped])
    else if w.seen < w.sent then
      let passed := { w with seen := w.sent, task := .watching w.value }
      if w.value = current then (passed, r, [])
      else
        let (acted, effects) := r.apply w.value
        (passed, acted, .notice (.visibilityChanged current w.value) :: effects)
    else if w.closed then ({ w with task := .ended }, r, [.notice .visibilityClosed])
    else (w, r, [])
  | _ => (w, r, [])

/-- A turn of the task: it looks about until there is nothing to see. One value at most is unseen,
so it looks twice. -/
def turn (w : Watcher) (r : Registry) : Watcher × Registry × List Effect :=
  let (begun, first) := w.begin_
  let (looked, r, second) := begun.observe r
  let (looked, r, third) := looked.observe r
  (looked, r, first ++ second ++ third)

end Watcher
end LiveQuery
