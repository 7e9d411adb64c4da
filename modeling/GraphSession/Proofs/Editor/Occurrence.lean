import GraphSession.Proofs.Editor.Correspondence

/-!
# Whose kind a node gets

A workflow that is written into a graph uses up what the editor has. The first node with an id takes
the kind of the last node of the graph with that id, and none of the graph's nodes with that id is
left for the nodes that follow. So with repeated ids the kind of a node depends on its place, on
nodes before it and on nodes that were in the graph (`EditorGraph.getElem?_adoptNodes`).

**The rule is all there is.** The graph that results is the only one that follows the rule and shows
the workflow for the rest (`EditorGraph.adopt_eq_iff`). All that it has of the graph before are
kinds, and with distinct ids it has them for good: it changes no more if the same workflow is
written again.
-/

namespace GraphSession

namespace EditorGraph

variable {t live g : EditorGraph} {w : Workflow} {held : List EditorNode} {nodes : List Node}
  {n : Node} {id : String} {kind : NodeKind} {i : Nat}

/-- The last of some nodes with an id has that kind. -/
def LastKind (held : List EditorNode) (id : String) (kind : NodeKind) : Prop :=
  ∃ front e back, held = front ++ e :: back ∧ e.id = id ∧ e.kind = kind ∧
    ∀ later ∈ back, later.id ≠ id

/-- The kind that is found for an id is that of the last node with this id. -/
theorem lastKind?_eq_some_iff : lastKind? held id = some kind ↔ LastKind held id kind := by
  rw [lastKind?, Option.map_eq_some_iff]
  constructor
  · rintro ⟨e, he, rfl⟩
    obtain ⟨hid, after, before, hsplit, hafter⟩ := List.find?_eq_some_iff_append.1 he
    refine ⟨before.reverse, e, after.reverse, ?_, of_decide_eq_true hid, rfl, fun later hlater ↦ ?_⟩
    · rw [← List.reverse_reverse held, hsplit]
      simp
    · simpa using hafter later (List.mem_reverse.1 hlater)
  · rintro ⟨front, e, back, rfl, hid, rfl, hback⟩
    refine ⟨e, List.find?_eq_some_iff_append.2
      ⟨decide_eq_true hid, back.reverse, front.reverse, ?_, ?_⟩, rfl⟩
    · simp
    · exact fun later hlater ↦ by simpa using hback later (List.mem_reverse.1 hlater)

/-- None is found exactly if no node has the id. -/
theorem lastKind?_eq_none_iff : lastKind? held id = none ↔ ∀ e ∈ held, e.id ≠ id := by
  simp [lastKind?]

/-- The kind that a place gives to its node. Later nodes with an id that has occurred find
nothing. -/
def kindAt (held : List EditorNode) (nodes : List Node) (i : Nat) (n : Node) : NodeKind :=
  (if n.id ∈ (nodes.take i).map Node.id then none else lastKind? held n.id).getD n.kind

/-- Each node is adopted by itself, with the kind that is settled at its place. -/
theorem getElem?_adoptNodes (held : List EditorNode) (nodes : List Node) (i : Nat) :
    (adoptNodes held nodes)[i]? = nodes[i]?.map fun n ↦ .ofNode (kindAt held nodes i n) n := by
  induction nodes generalizing held i with
  | nil => rfl
  | cons n rest ih =>
    cases i with
    | zero => simp [adoptNodes, kindAt]
    | succ i =>
      rw [adoptNodes, List.getElem?_cons_succ, List.getElem?_cons_succ, ih]
      refine Option.map_congr fun m _ ↦ ?_
      rw [kindAt, kindAt, List.take_succ_cons, List.map_cons]
      -- `n` has used up what was held under its own id, and nothing else.
      by_cases hm : m.id = n.id
      · have hnone : lastKind? (held.filter fun e ↦ e.id ≠ n.id) m.id = none := by
          rw [hm, lastKind?_eq_none_iff]
          exact fun e he ↦ by simpa using (List.mem_filter.1 he).2
        rw [hnone, ite_self, if_pos (List.mem_cons.2 (.inl hm))]
      · simp only [lastKind?_filter_of_ne hm, List.mem_cons, hm, false_or]

/-- What a graph becomes when a workflow is written into it. -/
structure Adopted (t : EditorGraph) (w : Workflow) (g : EditorGraph) : Prop where
  /-- There is a node for each node of the workflow, in its order. -/
  length : g.nodes.length = w.nodes.length
  /-- It says the same in everything but the kind. -/
  shown : ∀ (i : Nat) (n : Node) (e : EditorNode), w.nodes[i]? = some n → g.nodes[i]? = some e →
    e.toNode = { n with kind := e.kind }
  /-- The first node with an id has the kind of the last one that the graph had with that id. -/
  kept : ∀ (i : Nat) (n : Node) (e : EditorNode), w.nodes[i]? = some n → g.nodes[i]? = some e →
    (∀ m ∈ w.nodes.take i, m.id ≠ n.id) → ∀ kind, LastKind t.nodes n.id kind → e.kind = kind
  /-- Every other node, and a node whose id the graph did not have, has the kind of the workflow. -/
  taken : ∀ (i : Nat) (n : Node) (e : EditorNode), w.nodes[i]? = some n → g.nodes[i]? = some e →
    ((∃ m ∈ w.nodes.take i, m.id = n.id) ∨ ∀ h ∈ t.nodes, h.id ≠ n.id) → e.kind = n.kind
  edges : g.edges.map EditorEdge.toEdge = w.edges
  error : g.error = w.error

/-- The graph has the ids of the workflow. -/
theorem map_id_adoptNodes (held : List EditorNode) (nodes : List Node) :
    (adoptNodes held nodes).map EditorNode.id = nodes.map Node.id := by
  induction nodes generalizing held with
  | nil => rfl
  | cons n rest ih => rw [adoptNodes, List.map_cons, List.map_cons, ih, EditorNode.ofNode]

/-- Adopting adds no node and drops none. -/
theorem length_adoptNodes (held : List EditorNode) (nodes : List Node) :
    (adoptNodes held nodes).length = nodes.length := by
  rw [← List.length_map EditorNode.id, map_id_adoptNodes, List.length_map]

/-- The first node of an id has the kind that was last held under it. -/
theorem kindAt_of_first (hfirst : ∀ m ∈ nodes.take i, m.id ≠ n.id)
    (hlast : LastKind held n.id kind) :
    kindAt held nodes i n = kind := by
  have hnot : n.id ∉ (nodes.take i).map Node.id := fun hmem ↦ by
    obtain ⟨m, hm, hid⟩ := List.mem_map.1 hmem
    exact hfirst m hm hid
  rw [kindAt, if_neg hnot, lastKind?_eq_some_iff.2 hlast, Option.getD_some]

/-- A later node of an id has its own kind, and so has one whose id was not held. -/
theorem kindAt_of_other (h : (∃ m ∈ nodes.take i, m.id = n.id) ∨ ∀ e ∈ held, e.id ≠ n.id) :
    kindAt held nodes i n = n.kind := by
  rw [kindAt]
  rcases h with ⟨m, hm, hid⟩ | hnone
  · rw [if_pos (hid ▸ List.mem_map_of_mem hm), Option.getD_none]
  · rw [lastKind?_eq_none_iff.2 hnone, ite_self, Option.getD_none]

/-- What adopting comes to, occurrence by occurrence. -/
theorem adopted_adopt (t : EditorGraph) (w : Workflow) : t.Adopted w (t.adopt w) := by
  have hplace {i : Nat} {n : Node} {e : EditorNode} (hn : w.nodes[i]? = some n)
      (he : (t.adopt w).nodes[i]? = some e) : e = .ofNode (kindAt t.nodes w.nodes i n) n := by
    rw [adopt, getElem?_adoptNodes, hn] at he
    exact (Option.some.inj he).symm
  constructor
  case length => exact length_adoptNodes t.nodes w.nodes
  case shown =>
    intro i n e hn he
    rw [hplace hn he]
    rfl
  case kept =>
    intro i n e hn he hfirst kind hlast
    rw [hplace hn he]
    exact kindAt_of_first hfirst hlast
  case taken =>
    intro i n e hn he hother
    rw [hplace hn he]
    exact kindAt_of_other hother
  case edges =>
    rw [adopt, List.map_map]
    exact List.map_id _
  case error => rfl

/-- A node that follows the rule has the kind that its place gives. -/
theorem Adopted.kind_eq (h : t.Adopted w g) {e : EditorNode} (hn : w.nodes[i]? = some n)
    (he : g.nodes[i]? = some e) : e.kind = kindAt t.nodes w.nodes i n := by
  by_cases hbefore : ∃ m ∈ w.nodes.take i, m.id = n.id
  · rw [h.taken i n e hn he (.inl hbefore), kindAt_of_other (.inl hbefore)]
  · have hfirst : ∀ m ∈ w.nodes.take i, m.id ≠ n.id := fun m hm hid ↦ hbefore ⟨m, hm, hid⟩
    cases hlast : lastKind? t.nodes n.id with
    | none =>
      have hnone := lastKind?_eq_none_iff.1 hlast
      rw [h.taken i n e hn he (.inr hnone), kindAt_of_other (.inr hnone)]
    | some kind =>
      have hkind := lastKind?_eq_some_iff.1 hlast
      rw [h.kept i n e hn he hfirst kind hkind, kindAt_of_first hfirst hkind]

/-- A node that says what another says, but for the kind, is made of that one. -/
theorem eq_ofNode {e : EditorNode} (h : e.toNode = { n with kind := e.kind }) :
    e = .ofNode e.kind n := by
  obtain ⟨id, kind, position, data⟩ := e
  cases n
  cases h
  rfl

/-- **The rule determines the graph.** -/
theorem adopt_eq_iff : t.adopt w = g ↔ t.Adopted w g := by
  refine ⟨fun h ↦ h ▸ adopted_adopt t w, fun h ↦ ?_⟩
  have hnodes : (t.adopt w).nodes = g.nodes := by
    refine List.ext_getElem? fun i ↦ ?_
    rw [adopt, getElem?_adoptNodes]
    cases hn : w.nodes[i]? with
    | none =>
      rw [List.getElem?_eq_none_iff, ← h.length] at hn
      rw [List.getElem?_eq_none_iff.2 hn, Option.map_none]
    | some n =>
      obtain ⟨hi, -⟩ := List.getElem?_eq_some_iff.1 hn
      have he := List.getElem?_eq_getElem (h.length ▸ hi)
      rw [he, eq_ofNode (h.shown i n _ hn he), h.kind_eq hn he]
      rfl
  have hedges : (t.adopt w).edges = g.edges :=
    toEdge_injective.list_map ((adopted_adopt t w).edges.trans h.edges.symm)
  have herror : (t.adopt w).error = g.error := h.error.symm
  calc t.adopt w = ⟨(t.adopt w).nodes, (t.adopt w).edges, (t.adopt w).error⟩ := rfl
    _ = g := by rw [hnodes, hedges, herror]

/-- Nothing of a graph matters but the kinds of its last nodes with the ids of the workflow. -/
theorem adopt_congr (h : ∀ n ∈ w.nodes, ∀ kind, LastKind t.nodes n.id kind ↔
    LastKind live.nodes n.id kind) :
    t.adopt w = live.adopt w := by
  have hkind (n : Node) (hn : n ∈ w.nodes) : lastKind? t.nodes n.id = lastKind? live.nodes n.id :=
    Option.ext fun kind ↦ by rw [lastKind?_eq_some_iff, lastKind?_eq_some_iff, h n hn]
  have hnodes : adoptNodes t.nodes w.nodes = adoptNodes live.nodes w.nodes := by
    refine List.ext_getElem? fun i ↦ ?_
    rw [getElem?_adoptNodes, getElem?_adoptNodes]
    refine Option.map_congr fun n hn ↦ ?_
    rw [kindAt, kindAt, hkind n (List.mem_of_getElem? hn)]
  rw [adopt, adopt, hnodes]

/-- Before a node with distinct ids there is none with its id. -/
theorem id_ne_of_mem_take (h : (nodes.map Node.id).Nodup) (hn : nodes[i]? = some n) {m : Node}
    (hm : m ∈ nodes.take i) : m.id ≠ n.id := by
  have hlater : n.id ∈ (nodes.map Node.id).drop i :=
    List.mem_of_getElem? (by rw [List.getElem?_drop, Nat.add_zero, List.getElem?_map, hn,
      Option.map_some])
  intro hid
  refine List.disjoint_take_drop h (Nat.le_refl i) ?_ hlater
  rw [← List.map_take, ← hid]
  exact List.mem_map_of_mem hm

/-- **Written twice is written once,** if the ids are distinct: each node then finds itself. -/
theorem adopt_adopt (hw : (w.nodes.map Node.id).Nodup) : (t.adopt w).adopt w = t.adopt w := by
  have h := adopted_adopt t w
  have hdistinct : ((t.adopt w).nodes.map EditorNode.id).Nodup := by
    rw [adopt, map_id_adoptNodes]
    exact hw
  have hid {i : Nat} {n : Node} {e : EditorNode} (hn : w.nodes[i]? = some n)
      (he : (t.adopt w).nodes[i]? = some e) : e ∈ (t.adopt w).nodes ∧ e.id = n.id :=
    ⟨List.mem_of_getElem? he, congrArg Node.id (h.shown i n e hn he)⟩
  refine adopt_eq_iff.2 ⟨h.length, h.shown, ?kept, ?taken, h.edges, h.error⟩
  -- With distinct ids the last node of an id is the one node of that id, which is the node itself.
  case kept =>
    rintro i n e hn he - kind ⟨front, e', back, hsplit, hid', rfl, -⟩
    obtain ⟨hmem, hsame⟩ := hid hn he
    have hmem' : e' ∈ (t.adopt w).nodes := hsplit ▸ List.mem_append_right _ List.mem_cons_self
    rw [List.inj_on_of_nodup_map hdistinct hmem hmem' (hsame.trans hid'.symm)]
  case taken =>
    rintro i n e hn he (⟨m, hm, hmid⟩ | hnone)
    · exact absurd hmid (id_ne_of_mem_take hw hn hm)
    · obtain ⟨hmem, hsame⟩ := hid hn he
      exact absurd hsame (hnone e hmem)

/-- With a repeated id it is not so: the first node then finds the second. -/
example (w : Workflow) (hw : w = (pair "a" "a").toWorkflow) :
    ((empty.adopt w).adopt w).nodes.map EditorNode.kind ≠ (empty.adopt w).nodes.map
      EditorNode.kind := by
  subst hw
  decide

/-- **Kinds go by occurrence.** Whatever ids repeat in a graph or in a workflow, the graph that the
workflow is written into becomes the one graph that shows the workflow and follows the rule for
kinds. So nothing else of the graph before survives, and with distinct ids to write the workflow
again changes nothing. -/
theorem kinds_by_occurrence :
    (∀ (t g : EditorGraph) (w : Workflow), t.adopt w = g ↔ t.Adopted w g) ∧
      (∀ (t live : EditorGraph) (w : Workflow),
        (∀ n ∈ w.nodes, ∀ kind, LastKind t.nodes n.id kind ↔ LastKind live.nodes n.id kind) →
        t.adopt w = live.adopt w) ∧
      ∀ (t : EditorGraph) (w : Workflow), (w.nodes.map Node.id).Nodup →
        (t.adopt w).adopt w = t.adopt w :=
  ⟨fun _ _ _ ↦ adopt_eq_iff, fun _ _ _ ↦ adopt_congr, fun _ _ ↦ adopt_adopt⟩

/-- A graph that has an id twice and a node between. -/
def repeated : EditorGraph :=
  let place : Position := ⟨⟨1⟩, ⟨2⟩⟩
  ⟨[⟨"a", .plotBar, place, .empty⟩, ⟨"c", .constInt, place, .empty⟩,
    ⟨"a", .plotLine, place, .empty⟩], [], some "late"⟩

/-- The same graph without the nodes that do not matter to a workflow of nodes with the id `a`. -/
def pruned : EditorGraph := ⟨[⟨"a", .plotLine, ⟨⟨0⟩, ⟨0⟩⟩, .empty⟩], [], none⟩

/-- In a workflow that repeats an id only the first occurrence takes the kind that was held. -/
theorem kinds_by_occurrence_repeated :
    (repeated.Adopted (pair "a" "a").toWorkflow (repeated.adopt (pair "a" "a").toWorkflow) ∧
      (repeated.adopt (pair "a" "a").toWorkflow).nodes.map EditorNode.identity =
        [("a", .plotLine), ("a", .constStr)]) ∧
    ((∀ n ∈ (pair "a" "a").toWorkflow.nodes, ∀ kind,
        LastKind repeated.nodes n.id kind ↔ LastKind pruned.nodes n.id kind) ∧
      repeated.adopt (pair "a" "a").toWorkflow = pruned.adopt (pair "a" "a").toWorkflow) ∧
    (((pair "a" "b").toWorkflow.nodes.map Node.id).Nodup ∧
      (stirred.adopt (pair "a" "b").toWorkflow).adopt (pair "a" "b").toWorkflow =
        stirred.adopt (pair "a" "b").toWorkflow) := by
  obtain ⟨hrule, hrest, htwice⟩ := kinds_by_occurrence
  have hlast : ∀ n ∈ (pair "a" "a").toWorkflow.nodes, ∀ kind,
      LastKind repeated.nodes n.id kind ↔ LastKind pruned.nodes n.id kind := by
    simp only [← lastKind?_eq_some_iff, toWorkflow, pair, List.map_cons, List.map_nil,
      List.forall_mem_cons]
    refine ⟨fun kind ↦ ?_, fun kind ↦ ?_, List.forall_mem_nil _⟩ <;> exact Iff.rfl
  have hdistinct : ((pair "a" "b").toWorkflow.nodes.map Node.id).Nodup := by decide
  exact ⟨⟨(hrule _ _ _).1 rfl, by decide⟩, ⟨hlast, hrest _ _ _ hlast⟩, hdistinct,
    htwice _ _ hdistinct⟩

end EditorGraph

end GraphSession
