import GraphSession.Timer.Bus

/-!
# Running nodes

The nodes that started and have not stopped, in the order of their starts. A second start keeps a
node's place, a stop of a node that does not run means nothing.
-/

namespace GraphSession

/-- The nodes that run, each once. -/
structure RunningNodes where
  nodes : List String
  distinct : nodes.Nodup
  deriving DecidableEq

namespace RunningNodes

/-- No node runs. -/
def empty : RunningNodes := ⟨[], .nil⟩

/-- That no node runs is written as the empty collection. -/
instance : EmptyCollection RunningNodes := ⟨empty⟩

/-- Inhabited by no running nodes. -/
instance : Inhabited RunningNodes := ⟨empty⟩

/-- Whether a node runs. -/
def contains (r : RunningNodes) (id : String) : Bool := r.nodes.contains id

/-- Whether no node runs. -/
def isEmpty (r : RunningNodes) : Bool := r.nodes.isEmpty

/-- A node runs from now on, as the last of those that run, if it does not run already. -/
def start (r : RunningNodes) (id : String) : RunningNodes :=
  if h : id ∈ r.nodes then r
  else ⟨r.nodes ++ [id], by
    rw [List.nodup_append]
    refine ⟨r.distinct, by simp, ?_⟩
    intro a ha b hb hab
    rw [List.mem_singleton.1 hb] at hab
    exact h (hab ▸ ha)⟩

/-- A node runs no longer; the others stay in their order. -/
def stop (r : RunningNodes) (id : String) : RunningNodes :=
  ⟨r.nodes.erase id, r.distinct.erase id⟩

/-- Does what a directive says about a node. -/
def record (r : RunningNodes) (id : String) : TimerDirective → RunningNodes
  | .start => r.start id
  | .stop => r.stop id

/-- What listeners are told when the task ends now: an error for each node that still runs. -/
def closingEvents (r : RunningNodes) : List TimerEvent := r.nodes.map fun id ↦ ⟨id, .error⟩

end RunningNodes

end GraphSession
