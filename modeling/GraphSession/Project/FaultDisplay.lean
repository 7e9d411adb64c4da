import GraphSession.Project.Wire

/-!
# How a fault shows on its node

A fault of a node is drawn at the node: ports in red, messages at a port or at the node, and a flag
on the parameters.

**Where a message goes.** A message of a validation fault belongs to a port when the text before its
first colon, trimmed, is one of the offending ports; all others belong to the node. Each message
goes to one place and messages of one place keep their order.
-/

namespace GraphSession

/-- How a fault is drawn. -/
structure FaultDisplay where
  redPorts : NameSet
  /-- Messages at a port, ascending by port. -/
  portMessages : List (String × List String)
  parameterFlag : Bool
  message : Option String
  deriving DecidableEq

namespace FaultDisplay

/-- The port that a message is for. -/
def portOf? (ports : NameSet) (message : String) : Option String :=
  let cs := message.toList
  if ':' ∈ cs then
    let port := String.ofList (Text.trim (cs.takeWhile (· ≠ ':')))
    if ports.contains port then some port else none
  else none

/-- The messages on lines of their own; none when there are none. -/
def joined (messages : List String) : Option String :=
  if messages = [] then none else some ("\n".intercalate messages)

/-- Puts a message behind those of its port, which gets a place among the ports if it has none
yet. -/
def attach (port message : String) : List (String × List String) → List (String × List String)
  | [] => [(port, [message])]
  | e :: rest =>
    if port < e.1 then (port, [message]) :: e :: rest
    else if port = e.1 then (e.1, e.2 ++ [message]) :: rest
    else e :: attach port message rest

/-- Where messages have gone: to ports, ascending by port, or to the node. -/
structure Routing where
  atPorts : List (String × List String)
  atNode : List String

/-- Sends one more message to its place. -/
def Routing.send (ports : NameSet) (r : Routing) (message : String) : Routing :=
  match portOf? ports message with
  | some port => { r with atPorts := attach port message r.atPorts }
  | none => { r with atNode := r.atNode ++ [message] }

/-- Sends messages to their places one after the other. -/
def Routing.ofMessages (ports : NameSet) (messages : List String) : Routing :=
  messages.foldl (Routing.send ports) ⟨[], []⟩

/-- How a fault is shown: messages of a validation may go to their ports, a parameter fault marks
the parameters, and a failed run always says something. -/
def ofFault : NodeFault → FaultDisplay
  | .validation ports messages =>
    let r := Routing.ofMessages ports messages
    { redPorts := ports
      portMessages := r.atPorts
      parameterFlag := false
      message := joined r.atNode }
  | .parameter messages => ⟨∅, [], true, joined messages⟩
  | .execution messages => ⟨∅, [], false, some ((joined messages).getD "Execution failed")⟩

/-- Whether there is nothing to draw. -/
def isEmpty (d : FaultDisplay) : Bool :=
  d.redPorts.toList.isEmpty && !d.parameterFlag && d.message.isNone

/-- A display as an object, with its ports in ascending order. -/
def encode (d : FaultDisplay) : Json :=
  .obj [("red_ports", .ofStrings d.redPorts.toList),
    ("port_messages", .obj (d.portMessages.map fun e ↦ (e.1, .ofStrings e.2))),
    ("param_error", .bool d.parameterFlag), ("message", .ofOption .str d.message)]

/-- Entries by ascending key. -/
def ascending (m : OrderedMap (List String)) : List (String × List String) :=
  m.entries.mergeSort fun a b ↦ a.1 ≤ b.1

/-- A display from an object or a list. Ports and the messages at them come in any order and are put
in ascending order. -/
def decode : Decoder FaultDisplay := fun t ↦ do
  let r ← t.record "struct NodeErrorView" ["red_ports", "port_messages", "param_error", "message"]
  r.finish <|
    FaultDisplay.mk
      <$> r.required "red_ports" (fun t ↦ (Tree.list Tree.string t).map NameSet.ofList)
      <*> r.required "port_messages"
        (fun t ↦ (Tree.map (Tree.list Tree.string) t).map ascending)
      <*> r.required "param_error" Tree.flag
      <*> r.nullable "message" Tree.string

end FaultDisplay

end GraphSession
