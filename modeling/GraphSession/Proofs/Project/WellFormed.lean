import GraphSession.Project.Basic
import GraphSession.Proofs.Json.WellFormed

/-!
# Well-formed projects

What a project holds of free-form values is well-formed in any program. What it holds of floats is
not: a position or a run time can be any float. How much is asked of them differs from property to
property, so it is a parameter here.
-/

namespace GraphSession

variable {ok ok' : Double → Prop}

/-- Both coordinates are as asked. -/
structure Position.WellFormed (ok : Double → Prop) (p : Position) : Prop where
  x : ok p.x
  y : ok p.y

/-- Its floats are as asked and its free-form values are well-formed. -/
structure Node.WellFormed (ok : Double → Prop) (n : Node) : Prop where
  position : n.position.WellFormed ok
  param : ∀ e ∈ n.param.entries, e.2.WellFormed
  runtime : ∀ d ∈ n.runtime, ok d
  schemaOut : ∀ m ∈ n.schemaOut, ∀ e ∈ m.entries, e.2.WellFormed

/-- So are its nodes. -/
def Project.WellFormed (ok : Double → Prop) (p : Project) : Prop :=
  ∀ n ∈ p.workflow.nodes, n.WellFormed ok

/-- Less may be asked of the floats of a node. -/
theorem Node.WellFormed.mono {n : Node} (h : n.WellFormed ok) (hok : ∀ d, ok d → ok' d) :
    n.WellFormed ok' where
  position := ⟨hok _ h.position.x, hok _ h.position.y⟩
  param := h.param
  runtime d hd := hok d (h.runtime d hd)
  schemaOut := h.schemaOut

/-- So it may of the floats of a project. -/
theorem Project.WellFormed.mono {p : Project} (h : p.WellFormed ok) (hok : ∀ d, ok d → ok' d) :
    p.WellFormed ok' :=
  fun n hn ↦ (h n hn).mono hok

end GraphSession
