import GraphSession.Channel.Connector
import GraphSession.Patch.Frame
import GraphSession.Timer.Running

/-!
# The task desk

What all calls about tasks share: the project that tasks write to, the slot with its state and the
task that occupies it, the channels, the clock and the timer events told so far.

**The slot and its guards.** A task that is registered gets a ticket and a guard. The guard lasts
until the task has ended in whichever way, and releases the slot then. Whoever waits for the end of
a task waits for its guard to be gone, so the wait is over only after the slot has been released.

**A terminal state stays visible.** When a task has ended the state of the slot says how, until the
next task or submission begins, which then counts from `idle`.
-/

namespace GraphSession

/-- The task in the slot. -/
structure ActiveTask where
  taskId : String
  ticket : Nat
  deriving DecidableEq

/-- A task that has not ended, and whether it has been told to. -/
structure TaskGuard where
  ticket : Nat
  cancelled : Bool
  deriving DecidableEq

/-- What calls about tasks share: the project, the slot, the guards of tasks, the channels, the
clock, and what was told to listeners. -/
structure Desk where
  project : Project
  state : TaskState
  active : Option ActiveTask
  guards : List TaskGuard
  /-- The next ticket. -/
  tickets : Nat
  connector : Connector
  /-- The clock, in milliseconds. -/
  now : Nat
  /-- How long a task may take. -/
  timeout : Nat
  published : List TimerEvent

/-- How a task ended that did not fail. -/
structure TaskReport where
  taskId : String
  /-- Completed, or timed out. -/
  state : TaskState
  /-- The messages in the order they came, without what did not decode. -/
  messages : List TaskMessage
  /-- How many patches did not decode or apply. -/
  rejected : Nat

namespace Desk

/-- A desk for a project, on which nothing has happened. -/
def start (p : Project) (timeout : Nat) : Desk :=
  { project := p, state := .idle, active := none, guards := [], tickets := 0,
    connector := .empty, now := 0, timeout := timeout, published := [] }

/-- The id of the task in the slot. -/
def activeTaskId? (d : Desk) : Option String := d.active.map ActiveTask.taskId

/-- Moves the state of the slot. -/
def transition (d : Desk) (next : TaskState) : Except Failure Desk :=
  let source := if d.state.isTerminal && next ≠ .idle then .idle else d.state
  (source.step next).map fun s ↦ { d with state := s }

/-- Fails when a task occupies the slot. -/
def ensureFree (d : Desk) : Except Failure Unit :=
  match d.active with
  | some a => .error (.taskActive a.taskId)
  | none => .ok ()

/-- Begins a submission. One that was begun before and given up is passed over. -/
def beginSubmission (d : Desk) : Except Failure Desk :=
  match d.ensureFree with
  | .error e => .error e
  | .ok _ =>
    (if d.state = .submitting then { d with state := .idle } else d).transition .submitting

/-- Ends a submission that starts no task. -/
def finishSubmission (d : Desk) (outcome : TaskState) : Except Failure Desk := d.transition outcome

/-- The desk after an attempt, which is as before if the attempt failed. -/
def attempt (d : Desk) (r : Except Failure Desk) : Desk :=
  match r with
  | .ok d' => d'
  | .error _ => d

/-- Puts a task into the slot: its ticket. -/
def register (d : Desk) (taskId : String) : Except Failure (Nat × Desk) :=
  match d.ensureFree with
  | .error e => .error e
  | .ok _ =>
    (d.transition .streaming).map fun d ↦
      (d.tickets,
        { d with
          active := some ⟨taskId, d.tickets⟩
          guards := d.guards ++ [⟨d.tickets, false⟩]
          tickets := d.tickets + 1 })

/-- Tells the task in the slot to end: the ticket to wait for. -/
def signalCancel (d : Desk) : Option Nat × Desk :=
  match d.active with
  | none => (none, d)
  | some a =>
    (some a.ticket,
      { d with
        guards := d.guards.map fun g ↦ if g.ticket = a.ticket then ⟨a.ticket, true⟩ else g })

/-- Whether a task has been told to end. -/
def isCancelled (d : Desk) (ticket : Nat) : Bool :=
  d.guards.any fun g ↦ g.ticket = ticket && g.cancelled

/-- Whether a task has ended and released the slot. -/
def isClosed (d : Desk) (ticket : Nat) : Bool := !d.guards.any fun g ↦ g.ticket = ticket

/-- Tells the listeners of some events, in order. -/
def publish (d : Desk) (es : List TimerEvent) : Desk := { d with published := d.published ++ es }

/-- Moves the state of the slot, whether or not the step is one of the allowed ones. -/
def force (d : Desk) (next : TaskState) : Desk :=
  match d.transition next with
  | .ok d' => d'
  | .error _ => { d with state := next }

/-- Takes the task of that id out of the slot. -/
def vacate (d : Desk) (taskId : String) : Desk :=
  if d.activeTaskId? = some taskId then { d with active := none } else d

/-- Ends a task: nodes that still run are closed, the slot is released, the guard goes. -/
def finish (d : Desk) (taskId : String) (ticket : Nat) (running : RunningNodes)
    (outcome : TaskState) : Desk :=
  let d := ((d.publish running.closingEvents).force outcome).vacate taskId
  { d with guards := d.guards.filter fun g ↦ g.ticket ≠ ticket }

/-- Changes the channels alone. -/
def onConnector (d : Desk) (f : Connector → Connector) : Desk :=
  { d with connector := f d.connector }

/-- Changes one channel alone. -/
def onChannel (d : Desk) (n : Nat) (f : Channel → Channel) : Desk :=
  d.onConnector fun c ↦ c.onChannel n f

/-- The clock goes on. -/
def advance (d : Desk) (ms : Nat) : Desk := { d with now := d.now + ms }

/-- Takes in a message: the patches that did not apply are counted, and a directive counts only with
a node. -/
def takeMessage (d : Desk) (running : RunningNodes) (m : TaskMessage) :
    Desk × RunningNodes × Nat :=
  let applied := PatchOp.applyAll d.project m.patch
  let d := { d with project := applied.1 }
  match m.timer, m.nodeId with
  | some directive, some id =>
    (d.publish [.ofDirective id directive], running.record id directive, applied.2.length)
  | _, _ => (d, running, applied.2.length)

end Desk

end GraphSession
