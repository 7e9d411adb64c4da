import GraphSession.Patch.Frame

/-!
# Timer events

What listeners are told about the run of a node: it started, it stopped, or its task ended while it
was still running.
-/

namespace GraphSession

/-- What listeners can be told of a node. -/
inductive TimerEventKind where
  | start | stop
  /-- The task ended and the node had not stopped. -/
  | error
  deriving DecidableEq

namespace TimerEventKind

/-- What a kind of event is called. -/
def name : TimerEventKind → String
  | start => "start"
  | stop => "stop"
  | error => "error"

/-- All kinds, in the order in which they are listed when a name is unknown. -/
def all : List TimerEventKind := [start, stop, error]

/-- The kind of a name, if there is one. -/
def ofName? (s : String) : Option TimerEventKind := all.find? fun k ↦ k.name = s

/-- A kind as its name. -/
def encode (k : TimerEventKind) : Json := .str k.name

/-- A kind from its name. -/
def decode : Decoder TimerEventKind := Tree.choice ofName? (all.map name)

end TimerEventKind

/-- What listeners are told: of which node, and what. -/
structure TimerEvent where
  nodeId : String
  kind : TimerEventKind
  deriving DecidableEq

namespace TimerEvent

/-- The event of a directive. -/
def ofDirective (nodeId : String) : TimerDirective → TimerEvent
  | .start => ⟨nodeId, .start⟩
  | .stop => ⟨nodeId, .stop⟩

/-- An event as an object. -/
def encode (e : TimerEvent) : Json := .obj [("node_id", .str e.nodeId), ("kind", e.kind.encode)]

/-- An event from an object or a list, both of whose fields have to be there. -/
def decode : Decoder TimerEvent := fun t ↦ do
  let r ← t.record "struct TimerEvent" ["node_id", "kind"]
  r.finish <|
    TimerEvent.mk <$> r.required "node_id" Tree.string <*> r.required "kind" TimerEventKind.decode

end TimerEvent

end GraphSession
