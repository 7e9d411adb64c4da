import GraphSession.Cache.Fetch
import GraphSession.Editor.Graph
import GraphSession.Output.Basic

/-!
# Cached results

Views of node outputs are cached under their data handles, and expire. A collection keeps the views
that some node still refers to and whose time is not up; the nodes are those of a project or those
of the editor's graph.
-/

namespace GraphSession

/-- A cache of views of outputs, by data handle. -/
abbrev ResultCache := FrequencyCache OutputView

namespace ResultCache

/-- Keeps the views of the given handles. -/
def retainReferenced (c : ResultCache) (live : NameSet) (now : Nat) : ResultCache :=
  c.sweep live.contains now

/-- How many views go if the views of the given handles are kept. -/
def countUnreferenced (c : ResultCache) (live : NameSet) (now : Nat) : Nat :=
  c.size - (c.retainReferenced live now).size

/-- Keeps the views that a project refers to. -/
def collectGarbage (c : ResultCache) (p : Project) (now : Nat) : ResultCache :=
  c.retainReferenced p.dataHandles now

/-- Keeps the views that the editor's graph refers to. -/
def collectFor (c : ResultCache) (g : EditorGraph) (now : Nat) : ResultCache :=
  c.retainReferenced g.dataHandles now

end ResultCache

end GraphSession
