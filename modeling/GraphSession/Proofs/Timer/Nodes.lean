import Mathlib.Data.List.Induction
import Mathlib.Tactic.SplitIfs
import GraphSession.Timer.Running

/-!
# Which nodes run, and since when

Timer events say which nodes run: a start sets a node going, a stop or an error ends it.
`RunningNodes` is what is left when events are heard one after the other (`RunningNodes.hearAll`),
so what can be said of it is said about the events: a node runs exactly if the last event about it
is a start (`mem_after_iff`), and the nodes stand in the order in which they have been running
(`ordered_after`).

**Since when a node runs** (`RunsSince`) is the earliest start after its last stop: a second start
does not count, and neither does one that was followed by a stop.

**The errors at the end** are exactly what is needed (`closes_after`): one for each node that runs,
in that order. When they have been heard, no node runs (`hearAll_closingEvents`).
-/

namespace GraphSession

/-- What the last event about a node says. -/
def lastKind? (es : List TimerEvent) (id : String) : Option TimerEventKind :=
  (es.reverse.find? fun e ↦ e.nodeId = id).map TimerEvent.kind

@[simp] theorem lastKind?_nil (id : String) : lastKind? [] id = none := rfl

/-- The last event of a node is the one that is heard last. -/
theorem lastKind?_concat (es : List TimerEvent) (e : TimerEvent) (id : String) :
    lastKind? (es ++ [e]) id = if e.nodeId = id then some e.kind else lastKind? es id := by
  rw [lastKind?, List.reverse_concat, List.find?_cons]
  split_ifs with h <;> simp [h, lastKind?]

/-- The place of the earliest start of a node since its last stop, and no stop came after it. -/
structure RunsSince (es : List TimerEvent) (id : String) (n : Nat) : Prop where
  started : es[n]? = some ⟨id, .start⟩
  since : ∀ e ∈ es.drop n, e.nodeId = id → e.kind = .start
  first : lastKind? (es.take n) id ≠ some .start

namespace RunsSince

variable {es : List TimerEvent} {id : String} {n : Nat}

/-- A node runs since an event that there is. -/
theorem lt_length (h : RunsSince es id n) : n < es.length :=
  (List.getElem?_eq_some_iff.1 h.started).1

/-- A node goes on running until it is stopped. -/
theorem concat (h : RunsSince es id n) {e : TimerEvent} (he : e.nodeId = id → e.kind = .start) :
    RunsSince (es ++ [e]) id n := by
  have hn := h.lt_length
  have hn' := Nat.le_of_lt hn
  refine ⟨?_, fun e' he' hid ↦ ?_, ?_⟩
  · rw [List.getElem?_append_left hn, h.started]
  · rw [List.drop_append_of_le_length hn', List.mem_append, List.mem_singleton] at he'
    rcases he' with he' | rfl
    · exact h.since e' he' hid
    · exact he hid
  · rw [List.take_append_of_le_length hn']
    exact h.first

/-- A node that did not run does so since it starts. -/
theorem of_start (h : lastKind? es id ≠ some .start) :
    RunsSince (es ++ [⟨id, .start⟩]) id es.length := by
  refine ⟨List.getElem?_concat_length, fun e he _ ↦ ?_, ?_⟩
  · rw [List.drop_left, List.mem_singleton] at he
    rw [he]
  · rwa [List.take_left]

end RunsSince

/-- One node has been running for longer than another. -/
def Outruns (es : List TimerEvent) (a b : String) : Prop :=
  ∃ i j, RunsSince es a i ∧ RunsSince es b j ∧ i < j

/-- One more event that ends neither of two nodes leaves the longer running one ahead. -/
theorem Outruns.concat {es : List TimerEvent} {a b : String} (h : Outruns es a b) {e : TimerEvent}
    (ha : e.nodeId = a → e.kind = .start) (hb : e.nodeId = b → e.kind = .start) :
    Outruns (es ++ [e]) a b := by
  obtain ⟨i, j, hi, hj, hij⟩ := h
  exact ⟨i, j, hi.concat ha, hj.concat hb, hij⟩

/-- The errors that close what events have left running: one for each node whose last event is a
start, in the order in which they have been running. -/
structure Closes (es closing : List TimerEvent) : Prop where
  errors : ∀ e ∈ closing, e.kind = .error
  once : (closing.map TimerEvent.nodeId).Nodup
  running : ∀ id, id ∈ closing.map TimerEvent.nodeId ↔ lastKind? es id = some .start
  ordered : (closing.map TimerEvent.nodeId).Pairwise (Outruns es)

namespace RunningNodes

/-- The nodes that run after an event. -/
def hear (r : RunningNodes) (e : TimerEvent) : RunningNodes :=
  match e.kind with
  | .start => r.start e.nodeId
  | .stop | .error => r.stop e.nodeId

/-- The nodes that run after some events are heard. -/
def hearAll (r : RunningNodes) (es : List TimerEvent) : RunningNodes := es.foldl hear r

/-- The nodes that events leave running. -/
def after (es : List TimerEvent) : RunningNodes := (∅ : RunningNodes).hearAll es

variable {r : RunningNodes} {e : TimerEvent} {es : List TimerEvent} {id : String}

@[simp] theorem nodes_empty : (∅ : RunningNodes).nodes = [] := rfl

/-- Sets of running nodes are known from their lists. -/
theorem ext_nodes {r r' : RunningNodes} (h : r.nodes = r'.nodes) : r = r' := by
  cases r
  cases r'
  congr

theorem hearAll_append (r : RunningNodes) (es es' : List TimerEvent) :
    r.hearAll (es ++ es') = (r.hearAll es).hearAll es' :=
  List.foldl_append

/-- One more event is heard last. -/
theorem hearAll_concat (r : RunningNodes) (es : List TimerEvent) (e : TimerEvent) :
    r.hearAll (es ++ [e]) = (r.hearAll es).hear e := by
  rw [hearAll_append]
  rfl

theorem after_append (es es' : List TimerEvent) : after (es ++ es') = (after es).hearAll es' :=
  hearAll_append _ _ _

/-- A directive is as good as the event that tells of it. -/
theorem record_eq (r : RunningNodes) (id : String) (directive : TimerDirective) :
    r.record id directive = r.hear (.ofDirective id directive) := by
  cases directive <;> rfl

/-- A node that runs already keeps its place when it is started again. -/
theorem nodes_start (r : RunningNodes) (id : String) :
    (r.start id).nodes = if id ∈ r.nodes then r.nodes else r.nodes ++ [id] := by
  unfold start
  split_ifs <;> rfl

theorem hear_of_start (he : e.kind = .start) : r.hear e = r.start e.nodeId := by
  rw [hear, he]

theorem hear_of_ne_start (he : e.kind ≠ .start) : r.hear e = r.stop e.nodeId := by
  unfold hear
  split
  · exact absurd ‹_› he
  · rfl
  · rfl

/-- An event is about one node, and says whether it runs from then on. -/
theorem mem_hear : id ∈ (r.hear e).nodes ↔ if e.nodeId = id then e.kind = .start
    else id ∈ r.nodes := by
  by_cases he : e.kind = .start
  · rw [hear_of_start he, nodes_start]
    split_ifs <;> simp_all [eq_comm]
  · rw [hear_of_ne_start he, stop, r.distinct.mem_erase_iff]
    split_ifs with hid
    · simp [hid, he]
    · simp [Ne.symm hid]

/-- A node runs when its last event is a start, or when it ran before and was not heard of. -/
theorem mem_hearAll : id ∈ (r.hearAll es).nodes ↔
    lastKind? es id = some .start ∨ lastKind? es id = none ∧ id ∈ r.nodes := by
  induction es using List.reverseRecOn with
  | nil => simp [hearAll]
  | append_singleton es e ih =>
    rw [hearAll_concat, mem_hear, lastKind?_concat]
    split_ifs
    · simp
    · exact ih

/-- **A node runs exactly if the last event about it is a start.** -/
theorem mem_after_iff : id ∈ (after es).nodes ↔ lastKind? es id = some .start := by
  rw [after, mem_hearAll]
  simp

/-- **The nodes stand in the order in which they have been running.** -/
theorem ordered_after (es : List TimerEvent) :
    (∀ id ∈ (after es).nodes, ∃ n, RunsSince es id n) ∧
      (after es).nodes.Pairwise (Outruns es) := by
  induction es using List.reverseRecOn with
  | nil => exact ⟨by simp [after, hearAll], List.Pairwise.nil⟩
  | append_singleton es e ih =>
    obtain ⟨runs, ordered⟩ := ih
    rw [after, hearAll_concat, ← after]
    by_cases he : e.kind = .start
    · -- nothing stops, and the node that starts is the last one if it did not run
      have keeps : ∀ id, e.nodeId = id → e.kind = .start := fun _ _ ↦ he
      have runs' : ∀ id ∈ (after es).nodes, ∃ n, RunsSince (es ++ [e]) id n := fun id hid ↦ by
        obtain ⟨n, hn⟩ := runs id hid
        exact ⟨n, hn.concat (keeps id)⟩
      have ordered' : (after es).nodes.Pairwise (Outruns (es ++ [e])) :=
        ordered.imp fun h ↦ h.concat (keeps _) (keeps _)
      rw [hear_of_start he, nodes_start]
      split_ifs with hid
      · exact ⟨runs', ordered'⟩
      · obtain ⟨id, kind⟩ := e
        obtain rfl : kind = .start := he
        have hlast : RunsSince (es ++ [⟨id, .start⟩]) id es.length :=
          .of_start fun h ↦ hid (mem_after_iff.2 h)
        refine ⟨fun a ha ↦ ?_, List.pairwise_append.2 ⟨ordered', by simp, fun a ha b hb ↦ ?_⟩⟩
        · rcases List.mem_append.1 ha with ha | ha
          · exact runs' a ha
          · obtain rfl : a = id := List.mem_singleton.1 ha
            exact ⟨_, hlast⟩
        · obtain rfl : b = id := List.mem_singleton.1 hb
          obtain ⟨n, hn⟩ := runs a ha
          exact ⟨n, es.length, hn.concat (keeps a), hlast, hn.lt_length⟩
    · -- one node stops, and the others are not told of
      rw [hear_of_ne_start he]
      have other : ∀ a ∈ (after es).nodes.erase e.nodeId, e.nodeId = a → e.kind = .start :=
        fun a ha hid ↦ absurd hid.symm ((after es).distinct.mem_erase_iff.1 ha).1
      refine ⟨fun a ha ↦ ?_, ?_⟩
      · obtain ⟨n, hn⟩ := runs a (List.mem_of_mem_erase ha)
        exact ⟨n, hn.concat (other a ha)⟩
      · exact (ordered.sublist List.erase_sublist).imp_of_mem fun ha hb h ↦
          h.concat (other _ ha) (other _ hb)

/-- There is one closing event for each running node, in order. -/
theorem nodeId_closingEvents (r : RunningNodes) :
    r.closingEvents.map TimerEvent.nodeId = r.nodes := by
  rw [closingEvents, List.map_map]
  exact List.map_id _

/-- Closing events are errors. -/
theorem kind_of_mem_closingEvents (h : e ∈ r.closingEvents) : e.kind = .error := by
  obtain ⟨_, -, rfl⟩ := List.mem_map.1 h
  rfl

/-- **The errors at the end close what runs, and nothing else.** -/
theorem closes_after (es : List TimerEvent) : Closes es (after es).closingEvents := by
  refine ⟨fun _ ↦ kind_of_mem_closingEvents, ?_, fun id ↦ ?_, ?_⟩ <;> rw [nodeId_closingEvents]
  · exact (after es).distinct
  · exact mem_after_iff
  · exact (ordered_after es).2

/-- **When they have been heard no node runs.** -/
theorem hearAll_closingEvents (r : RunningNodes) : r.hearAll r.closingEvents = ∅ := by
  refine ext_nodes (List.eq_nil_iff_forall_not_mem.2 fun id hid ↦ ?_)
  rw [mem_hearAll, lastKind?] at hid
  rcases hid with hstart | ⟨hnone, hmem⟩
  · obtain ⟨e, he, hkind⟩ := Option.map_eq_some_iff.1 hstart
    have herror := kind_of_mem_closingEvents (List.mem_reverse.1 (List.mem_of_find?_eq_some he))
    rw [hkind] at herror
    cases herror
  · rw [Option.map_eq_none_iff, List.find?_eq_none] at hnone
    have hclosing : (⟨id, .error⟩ : TimerEvent) ∈ r.closingEvents.reverse :=
      List.mem_reverse.2 (List.mem_map.2 ⟨id, hmem, rfl⟩)
    exact hnone _ hclosing (by simp)

end RunningNodes

end GraphSession
