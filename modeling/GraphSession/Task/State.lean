import GraphSession.Json.Decode

/-!
# States of the task slot

A session has one slot for a task. Its state moves along a fixed set of steps:

```
idle       → submitting, streaming
submitting → streaming, completed, errored, cancelled
streaming  → completed, cancelled, timedOut, errored
completed, cancelled, timedOut, errored → idle
```

The last four end a task. A submission may complete at once, when the backend answers it with the
finished project.
-/

namespace GraphSession

/-- The state of the task slot. -/
inductive TaskState where
  | idle | submitting | streaming | completed | cancelled | timedOut | errored
  deriving DecidableEq, Inhabited

namespace TaskState

/-- All states, in the order in which they are listed when a name is unknown. -/
def all : List TaskState :=
  [idle, submitting, streaming, completed, cancelled, timedOut, errored]

/-- What a state is called. -/
def name : TaskState → String
  | idle => "idle"
  | submitting => "submitting"
  | streaming => "streaming"
  | completed => "completed"
  | cancelled => "cancelled"
  | timedOut => "timed_out"
  | errored => "errored"

/-- The state of a name, if there is one. -/
def ofName? (s : String) : Option TaskState := all.find? fun t ↦ t.name = s

/-- A state as its name. -/
def encode (s : TaskState) : Json := .str s.name

/-- A state from its name. -/
def decode : Decoder TaskState := Tree.choice ofName? (all.map name)

/-- Whether the state ends a task. -/
def isTerminal : TaskState → Bool
  | completed | cancelled | timedOut | errored => true
  | idle | submitting | streaming => false

/-- The states that may follow. -/
def followers : TaskState → List TaskState
  | idle => [submitting, streaming]
  | submitting => [streaming, completed, errored, cancelled]
  | streaming => [completed, cancelled, timedOut, errored]
  | completed | cancelled | timedOut | errored => [idle]

/-- Whether a state may follow another at once. -/
def canBecome (s t : TaskState) : Bool := s.followers.contains t

end TaskState

end GraphSession
