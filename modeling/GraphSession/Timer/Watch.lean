import GraphSession.Timer.Running

/-!
# Watching a task

The bus of a task together with the nodes that run in it: what a directive starts or stops is told
to the listeners, and what still runs when the watch ends is told as an error.
-/

namespace GraphSession

/-- Listeners, and the nodes that run as far as they were told. -/
structure TimerWatch where
  bus : TimerBus
  running : RunningNodes

namespace TimerWatch

/-- Nobody listens, and no node runs. -/
def empty : TimerWatch := ⟨.empty, ∅⟩

/-- Publishes an event and leaves the running nodes alone. -/
def publish (w : TimerWatch) (e : TimerEvent) : TimerWatch × List Delivery :=
  let (bus, ds) := w.bus.publish e
  ({ w with bus := bus }, ds)

/-- Remembers what a directive starts or stops, without telling anybody. -/
def record (w : TimerWatch) (id : String) (d : TimerDirective) : TimerWatch :=
  { w with running := w.running.record id d }

/-- Remembers and tells what a directive starts or stops. -/
def direct (w : TimerWatch) (id : String) (d : TimerDirective) : TimerWatch × List Delivery :=
  (w.record id d).publish (.ofDirective id d)

/-- Tells that every node that still runs has failed; none runs afterwards. -/
def close (w : TimerWatch) : TimerWatch × List Delivery :=
  let (bus, ds) := w.bus.publishAll w.running.closingEvents
  (⟨bus, ∅⟩, ds)

end TimerWatch

end GraphSession
