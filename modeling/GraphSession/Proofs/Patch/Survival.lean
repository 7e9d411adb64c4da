import GraphSession.Proofs.Patch.Outline
import GraphSession.Proofs.Wire.Survival

/-!
# What a task says is heard in full

A message is written as a whole and read part by part (`GraphSession.Patch.Frame`). The two agree on
everything that can be written: the text of a message is a frame of that message, nothing in it is
rejected, and its timer is no stranger (`TaskMessage.heard_whole`). The text is an object that has
the encoded parts of the message (`TaskMessage.isHeldBy_text`), so it is enough that each part is
recovered alone.

**Segments are told apart by their type.** An index is written as a number and a key as a string,
also a key of digits, so a path is read with the steps that it had (`PatchPath.survives_text`).
-/

namespace GraphSession

open Record Gathered

namespace Segment

/-- Indices are those of 64 bits. -/
def Durable : Segment → Prop
  | index n => n < Nat.pow 2 64
  | key _ => True

variable {s : Segment}

theorem durable_encode (h : s.Durable) : s.encode.Durable := by
  cases s with
  | index n => exact Json.durable_ofNat h
  | key s => exact .str s

/-- An index stays an index and a key stays a key. -/
theorem recovers (h : s.Durable) : Recovers encode decode s := by
  cases s with
  | index n => exact if_pos ⟨Int.natCast_nonneg n, h⟩
  | key s => rfl

end Segment

namespace PatchPath

/-- A path is written as the array of its segments. -/
def encode (path : PatchPath) : Json := .arr (path.map Segment.encode)

/-- A path is read as an array of segments. -/
def decode : Decoder PatchPath := Tree.list Segment.decode

/-- Its indices are those of 64 bits. -/
def Durable (path : PatchPath) : Prop := ∀ s ∈ path, s.Durable

variable {path : PatchPath}

theorem durable_encode (h : Durable path) : (encode path).Durable :=
  Json.durable_list fun s hs ↦ Segment.durable_encode (h s hs)

/-- Reading what a durable path was written as gives the path. -/
theorem recovers (h : Durable path) : Recovers encode decode path :=
  Tree.list_recovers fun s hs ↦ Segment.recovers (h s hs)

end PatchPath

namespace PatchOp

/-- The indices of its path are those of 64 bits, and its value is durable. -/
structure Durable (op : PatchOp) : Prop where
  key : PatchPath.Durable op.key
  value : op.value.Durable

variable {op : PatchOp}

theorem durable_encode (h : op.Durable) : op.encode.Durable := by
  refine Json.durable_obj (List.Sublist.refl ["key", "value"]) (by decide) ?_
  simp only [List.forall_mem_cons]
  exact ⟨PatchPath.durable_encode h.key, h.value, nofun⟩

/-- Reading what a durable operation was written as gives the operation. -/
theorem recovers (h : op.Durable) : Recovers encode decode op := by
  refine Record.recovered (durable_encode h) (seq_value (map_value _ ?key) ?value)
  case key => exact required_of_lookup rfl (PatchPath.recovers h.key)
  case value => exact required_of_lookup rfl (Tree.freeForm_recovers h.value.wellFormed)

end PatchOp

namespace Frame

/-- Entries that were written as patches are these patches. -/
theorem sortPatches_encode {ops : List PatchOp} (h : ∀ op ∈ ops, op.Durable) :
    sortPatches (ops.map PatchOp.encode) = (ops, []) := by
  induction ops with
  | nil => rfl
  | cons op ops ih =>
    obtain ⟨hop, hops⟩ := List.forall_mem_cons.1 h
    have hdecode : PatchOp.decode (Tree.ofJson op.encode) = .ok op := PatchOp.recovers hop
    rw [List.map_cons, sortPatches, patchOf, hdecode, ih hops]
    rfl

theorem sortTimer_encode (timer : Option TimerDirective) :
    sortTimer (timer.map TimerDirective.encode) = (timer, none) := by
  cases timer with
  | none => rfl
  | some d => exact sortTimer_of_isWritten (.inl rfl)

theorem nodeIdOf_str (nodeId : Option String) : nodeIdOf (nodeId.map .str) = nodeId := by
  cases nodeId <;> rfl

end Frame

namespace TaskMessage

/-- Its patches are durable. -/
def Durable (m : TaskMessage) : Prop := ∀ op ∈ m.patch, op.Durable

/-- The parts of a message, each encoded. -/
def outline (m : TaskMessage) : FrameOutline :=
  ⟨m.patch.map PatchOp.encode, m.timer.map TimerDirective.encode, m.nodeId.map .str⟩

variable {m : TaskMessage}

/-- The outline of a durable message sorts into the message, with nothing rejected. -/
theorem ofOutline_outline (h : m.Durable) : Frame.ofOutline m.outline = ⟨m, [], none⟩ := by
  rw [Frame.ofOutline, outline]
  simp only [Frame.sortPatches_encode h, Frame.sortTimer_encode, Frame.nodeIdOf_str]

/-- The fields that a message is written with. -/
def fields (m : TaskMessage) : List (String × Json) :=
  (if m.patch.isEmpty then [] else [("patch", .arr (m.patch.map PatchOp.encode))]) ++
    Json.fieldIfSome "timer" TimerDirective.encode m.timer ++ Json.fieldIfSome "node_id" .str
    m.nodeId

/-- The fields of a message are in the order of the outline's names, each at most once. -/
theorem keys_fields (m : TaskMessage) :
    (Entries.keys m.fields).Sublist FrameOutline.fieldNames := by
  have hpatch : (Entries.keys (if m.patch.isEmpty then [] else
      [("patch", .arr (m.patch.map PatchOp.encode))] : List (String × Json))).Sublist
      ["patch"] := by
    split
    · exact List.nil_sublist _
    · exact List.Sublist.refl _
  rw [fields, Entries.keys, List.map_append, List.map_append]
  exact (hpatch.append (Json.keys_fieldIfSome _ _ _)).append (Json.keys_fieldIfSome _ _ _)

theorem durable_encode (h : m.Durable) : m.encode.Durable := by
  change (Json.obj m.fields).Durable
  refine Json.durable_obj m.keys_fields (by decide) ?_
  simp only [fields, List.forall_mem_append, Json.forall_mem_fieldIfSome]
  refine ⟨⟨?_, fun d _ ↦ .str d.name⟩, fun s _ ↦ .str s⟩
  split
  · exact List.forall_mem_nil _
  · exact List.forall_mem_singleton.2 (Json.durable_list fun op hop ↦
      PatchOp.durable_encode (h op hop))

theorem lookup_patch (m : TaskMessage) : m.fields.lookup "patch" =
    if m.patch.isEmpty then none else some (.arr (m.patch.map PatchOp.encode)) := by
  rw [fields]
  cases m.patch <;> simp [List.lookup_append]

theorem lookup_timer (m : TaskMessage) :
    m.fields.lookup "timer" = m.timer.map TimerDirective.encode := by
  rw [fields]
  cases m.patch <;> simp [List.lookup_append, List.lookup_cons]

theorem lookup_nodeId (m : TaskMessage) : m.fields.lookup "node_id" = m.nodeId.map .str := by
  rw [fields]
  cases m.patch <;> simp [List.lookup_append, List.lookup_cons]

/-- The fields of a message are the parts of its outline. -/
theorem partsOf_fields (h : m.Durable) : m.outline.PartsOf (Tree.ofFields m.fields) where
  once name hname := by
    have hdistinct : FrameOutline.fieldNames.Nodup := by decide
    rw [Tree.keys_ofFields]
    exact (m.keys_fields.count_le name).trans (List.nodup_iff_count_le_one.1 hdistinct name)
  patch := by
    rw [Tree.lookup_ofFields, lookup_patch, outline]
    -- without patches the field is left out, and no field is read as no entries
    cases hm : m.patch with
    | nil => exact .inl ⟨rfl, rfl⟩
    | cons op ops =>
      rw [← hm]
      refine .inr ⟨Tree.ofItems (m.patch.map PatchOp.encode), ?_, Tree.itemsToJson?_ofItems ?_⟩
      · rw [hm]
        rfl
      · exact List.forall_mem_map.2 fun op hop ↦
          Tree.toJson?_ofJson (PatchOp.durable_encode (h op hop)).wellFormed
  timer := by
    rw [Tree.lookup_ofFields, lookup_timer, outline]
    cases m.timer <;> rfl
  nodeId := by
    rw [Tree.lookup_ofFields, lookup_nodeId, outline]
    cases m.nodeId <;> rfl

/-- The text of a message has the parts of the message. -/
theorem isHeldBy_text (h : m.Durable) (hdepth : m.encode.depth ≤ Tree.depthLimit) :
    m.outline.IsHeldBy m.text :=
  ⟨Tree.ofFields m.fields, Json.ofText?_text (durable_encode h) hdepth, partsOf_fields h⟩

/-- **A message is heard as it was said:** all of its patches, its timer and its node, and nothing
is rejected. -/
theorem heard_whole (m : TaskMessage) (h : m.Durable) (hdepth : m.encode.depth ≤ Tree.depthLimit) :
    Frame.ofText? m.text = some ⟨m, [], none⟩ := by
  rw [Frame.ofText?_of_isHeldBy (isHeldBy_text h hdepth), ofOutline_outline h]

/-- A message with an index beside a key of digits, a nested value, an empty path, and a
directive. -/
def crowded : TaskMessage where
  patch := [⟨[.key "workflow", .key "nodes", .index 0, .key "param", .key "0"],
      .obj [("b", .arr [.float WireType.oneAndHalf, .null, .int (-1)]), ("a", .str "\t")]⟩,
      ⟨[], .null⟩]
  timer := some .stop
  nodeId := some "n \"1\""

theorem durable_crowded : crowded.Durable := by
  have hkey : PatchPath.Durable
      [.key "workflow", .key "nodes", .index 0, .key "param", .key "0"] := by
    simp only [PatchPath.Durable, List.forall_mem_cons]
    exact ⟨trivial, trivial, show 0 < Nat.pow 2 64 by decide, trivial, trivial,
      List.forall_mem_nil _⟩
  have hitems : Json.Durable (.arr [.float WireType.oneAndHalf, .null, .int (-1)]) := by
    refine .arr ?_
    simp only [List.forall_mem_cons]
    exact ⟨.float WireType.survives_oneAndHalf, .null, .int ⟨by decide, by decide⟩,
      List.forall_mem_nil _⟩
  have hvalue : Json.Durable (.obj [("b", .arr [.float WireType.oneAndHalf, .null, .int (-1)]),
      ("a", .str "\t")]) := by
    refine .obj (by decide) ?_
    simp only [List.forall_mem_cons]
    exact ⟨hitems, .str _, List.forall_mem_nil _⟩
  simp only [TaskMessage.Durable, crowded, List.forall_mem_cons]
  exact ⟨⟨hkey, hvalue⟩, ⟨List.forall_mem_nil _, .null⟩, List.forall_mem_nil _⟩

/-- A message with every part present survives its text. -/
theorem heard_crowded : crowded.Durable ∧ crowded.encode.depth ≤ Tree.depthLimit ∧
    Frame.ofText? crowded.text = some ⟨crowded, [], none⟩ := by
  have hdepth : crowded.encode.depth ≤ Tree.depthLimit := by decide
  exact ⟨durable_crowded, hdepth, heard_whole crowded durable_crowded hdepth⟩

end TaskMessage

end GraphSession
