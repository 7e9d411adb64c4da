import GraphSession.Schedule.Flight
import GraphSession.Task.Calls

/-!
# Rehearsals of tasks

A rehearsal plays calls about tasks against a desk, under labels. A task can also be registered and
its monitor held back: the slot is taken from then on, but nothing follows the task until the
monitor is let go, or dropped, which counts as a cancellation.
-/

namespace GraphSession

/-- Calls in flight on a desk, and monitors that are held back. -/
structure TaskRehearsal where
  flight : Flight Desk TaskCall TaskResult
  /-- The calls that are held back. -/
  held : List (String × TaskCall)

namespace TaskRehearsal

/-- A desk for a project, on which nothing was called for. -/
def start (p : Project) (timeout : Nat) : TaskRehearsal := ⟨.start (.start p timeout), []⟩

/-- The desk that the calls share. -/
def desk (r : TaskRehearsal) : Desk := r.flight.shared

/-- Changes the desk from outside of all calls. -/
def onDesk (r : TaskRehearsal) (f : Desk → Desk) : TaskRehearsal :=
  { r with flight := r.flight.change f }

/-- Makes a call. -/
def launch (r : TaskRehearsal) (label : String) (c : TaskCall) : TaskRehearsal :=
  { r with flight := r.flight.launch label c }

/-- Registers a task and follows it. -/
def follow (r : TaskRehearsal) (label taskId : String) : TaskRehearsal :=
  let (c, d) := TaskCall.monitor r.desk taskId
  (r.onDesk fun _ ↦ d).launch label c

/-- Cancels the task in the slot. -/
def cancel (r : TaskRehearsal) (label : String) : TaskRehearsal := r.launch label .cancel

/-- Takes a call out of those that are held back. -/
def release (r : TaskRehearsal) (label : String) : TaskRehearsal :=
  { r with held := r.held.filter fun h ↦ h.1 ≠ label }

/-- Drops a call that is held back: whether there was one. -/
def drop (r : TaskRehearsal) (label : String) : Bool × TaskRehearsal :=
  match r.held.lookup label with
  | none => (false, r)
  | some c => (true, (r.release label).onDesk fun d ↦ c.abandon d)

/-- Registers a task and holds its monitor back, in the place of one that was held back before. -/
def hold (r : TaskRehearsal) (label taskId : String) : TaskRehearsal :=
  let (c, d) := TaskCall.monitor r.desk taskId
  let r := ((r.onDesk fun _ ↦ d).drop label).2
  { r with held := r.held ++ [(label, c)] }

/-- Lets a call go that was held back. -/
def letGo (r : TaskRehearsal) (label : String) : TaskRehearsal :=
  match r.held.lookup label with
  | none => r
  | some c => (r.release label).launch label c

/-- Gives up a call: whether it had not returned. -/
def giveUp (r : TaskRehearsal) (label : String) : Bool × TaskRehearsal :=
  let (found, f) := r.flight.giveUp TaskCall.machine label
  (found, { r with flight := f })

/-- More turns than the calls in flight can take: each takes in the frames that are there and goes
through fewer than eight places, and every turn brings at most every caller into the queue. -/
def turnsLeft (r : TaskRehearsal) : Nat :=
  (8 * r.flight.callers.length + r.desk.connector.undelivered + 1) * (r.flight.callers.length + 1)

/-- Lets the calls take turns until each has to wait. -/
def settle (r : TaskRehearsal) : TaskRehearsal :=
  { r with flight := r.flight.settle TaskCall.machine r.turnsLeft }

end TaskRehearsal

end GraphSession
