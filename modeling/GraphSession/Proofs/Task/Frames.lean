import Mathlib.Algebra.GroupWithZero.Nat
import Mathlib.Data.List.Basic
import GraphSession.Proofs.Patch.Locality
import GraphSession.Proofs.Patch.Outline
import GraphSession.Proofs.Timer.Nodes
import GraphSession.Task.Desk

/-!
# What the text of a frame does

A monitor takes in texts, and all that a text does is read off its frame: its patches change the
project (`Project.takeText`), its directive, if it has a node too, is told to the listeners
(`Frame.event?`), and its message goes into the report (`Frame.message?`). A text that is no frame
does none of these.

**Every entry counts once** (`accepted_add_rejected`). The entries of the patch array of a frame are
sorted into patches and entries that are none, and a patch is accepted or rejected by the project as
it finds it. So what was accepted and what was rejected, for either cause, add up to the entries
there were.
-/

namespace GraphSession

/-- The timer event of a message, if it has both a directive and a node. -/
def TaskMessage.event? (m : TaskMessage) : Option TimerEvent :=
  match m.timer, m.nodeId with
  | some directive, some id => some (.ofDirective id directive)
  | _, _ => none

/-- The parts of the frame of a text; none when the text has not even the outline of one. -/
def FrameOutline.ofText? (text : String) : Option FrameOutline :=
  (Tree.ofText? text).bind fun t ↦ (decode t).toOption

namespace Frame

/-- A frame is read from the outline of its text. -/
theorem ofText?_eq (text : String) : ofText? text = (FrameOutline.ofText? text).map ofOutline := by
  unfold ofText? FrameOutline.ofText?
  cases Tree.ofText? text with
  | none => rfl
  | some t =>
    simp only [Option.bind_some]
    cases FrameOutline.decode t <;> rfl

/-- The message of a text. -/
def message? (text : String) : Option TaskMessage := (ofText? text).map Frame.message

/-- What a text tells the listeners. -/
def event? (text : String) : Option TimerEvent := (message? text).bind TaskMessage.event?

/-- How many entries the patch array of a text has. -/
def entries (text : String) : Nat := (FrameOutline.ofText? text).elim 0 fun o ↦ o.patch.length

/-- The messages of texts, without the texts that are no frames. -/
def messages (texts : List String) : List TaskMessage := texts.filterMap message?

/-- What texts tell the listeners. -/
def events (texts : List String) : List TimerEvent := texts.filterMap event?

/-- One more text, if any, tells its event last. -/
theorem events_append_toList (texts : List String) (text : Option String) :
    events (texts ++ text.toList) = events texts ++ (text.bind event?).toList := by
  rw [events, List.filterMap_append, ← events]
  cases text with
  | none => rfl
  | some text => cases h : event? text <;> simp [h]

/-- One more text gives its message last. -/
theorem messages_concat (texts : List String) (text : String) :
    messages (texts ++ [text]) = messages texts ++ (message? text).toList := by
  rw [messages, List.filterMap_append, ← messages]
  cases h : message? text <;> simp [h]

theorem message?_of_none {text : String} (h : ofText? text = none) : message? text = none := by
  rw [message?, h, Option.map_none]

theorem message?_of_some {text : String} {f : Frame} (h : ofText? text = some f) :
    message? text = some f.message := by
  rw [message?, h, Option.map_some]

theorem event?_of_none {text : String} (h : ofText? text = none) : event? text = none := by
  rw [event?, message?_of_none h, Option.bind_none]

theorem event?_of_some {text : String} {f : Frame} (h : ofText? text = some f) :
    event? text = f.message.event? := by
  rw [event?, message?_of_some h, Option.bind_some]

theorem entries_of_none {text : String} (h : ofText? text = none) : entries text = 0 := by
  rw [ofText?_eq, Option.map_eq_none_iff] at h
  rw [entries, h, Option.elim_none]

theorem entries_of_some {text : String} {f : Frame} (h : ofText? text = some f) :
    entries text = f.message.patch.length + f.rejected.length := by
  rw [ofText?_eq] at h
  obtain ⟨o, ho, rfl⟩ := Option.map_eq_some_iff.1 h
  rw [entries, ho, Option.elim_some]
  exact (length_sortPatches o.patch).symm

end Frame

/-- How many of some patches are accepted, each by the project as it finds it. -/
def PatchOp.accepted (p : Project) : List PatchOp → Nat
  | [] => 0
  | op :: rest =>
    match apply p op with
    | .ok p' => accepted p' rest + 1
    | .error _ => accepted p rest

/-- A patch is accepted, or its cause is kept. -/
theorem PatchOp.accepted_add_length (p : Project) (ops : List PatchOp) :
    accepted p ops + (applyAll p ops).2.length = ops.length := by
  induction ops generalizing p with
  | nil => rfl
  | cons op rest ih =>
    rw [accepted, applyAll]
    cases apply p op with
    | ok p' =>
      have := ih p'
      simp only [List.length_cons]
      omega
    | error e =>
      have := ih p
      simp only [List.length_cons]
      omega

namespace Project

/-- The project after the frame of a text. A text that is no frame changes nothing. -/
def takeText (p : Project) (text : String) : Project :=
  match Frame.ofText? text with
  | none => p
  | some f => (PatchOp.applyAll p f.message.patch).1

variable {p q : Project} {text : String}

/-- A text works on the workflow, whatever else the project holds. -/
theorem takeText_eq (h : q.workflow = p.workflow) (text : String) :
    q.takeText text = { q with workflow := (p.takeText text).workflow } := by
  unfold takeText
  split
  · rw [← h]
  · rw [PatchOp.applyAll_eq h]

/-- A text that is no frame leaves the project. -/
theorem takeText_of_none (h : Frame.ofText? text = none) : p.takeText text = p := by
  rw [takeText, h]

/-- The text of a frame leaves what its patches make of the project. -/
theorem takeText_of_some {f : Frame} (h : Frame.ofText? text = some f) :
    p.takeText text = (PatchOp.applyAll p f.message.patch).1 := by
  rw [takeText, h]

/-- **Texts are their patches.** What is no frame may be left out. -/
theorem foldl_takeText (p : Project) (texts : List String) :
    texts.foldl takeText p =
      (Frame.messages texts).foldl (fun q m ↦ (PatchOp.applyAll q m.patch).1) p := by
  rw [Frame.messages, List.foldl_filterMap]
  refine List.foldl_ext _ _ _ fun q text _ ↦ ?_
  cases h : Frame.ofText? text with
  | none => rw [takeText_of_none h, Frame.message?_of_none h]
  | some f => rw [takeText_of_some h, Frame.message?_of_some h]

/-- How many entries of a text are accepted. -/
def accepted (p : Project) (text : String) : Nat :=
  (Frame.message? text).elim 0 fun m ↦ PatchOp.accepted p m.patch

/-- How many entries of a text are rejected, as they are no patches or do not apply. -/
def rejected (p : Project) (text : String) : Nat :=
  match Frame.ofText? text with
  | none => 0
  | some f => f.rejected.length + (PatchOp.applyAll p f.message.patch).2.length

theorem rejected_of_none (h : Frame.ofText? text = none) : p.rejected text = 0 := by
  rw [rejected, h]

/-- What is rejected of a text are the entries that are no patches and the patches that do not
apply. -/
theorem rejected_of_some {f : Frame} (h : Frame.ofText? text = some f) :
    p.rejected text = f.rejected.length + (PatchOp.applyAll p f.message.patch).2.length := by
  rw [rejected, h]

/-- Every entry of a text is accepted or rejected. -/
theorem accepted_add_rejected (p : Project) (text : String) :
    p.accepted text + p.rejected text = Frame.entries text := by
  cases h : Frame.ofText? text with
  | none =>
    rw [accepted, Frame.message?_of_none h, rejected_of_none h, Frame.entries_of_none h]
    rfl
  | some f =>
    rw [accepted, Frame.message?_of_some h, Option.elim_some, rejected_of_some h,
      Frame.entries_of_some h, ← PatchOp.accepted_add_length p f.message.patch]
    omega

/-- What the texts count for, each on the project as it finds it. -/
def sumOver (count : Project → String → Nat) : Project → List String → Nat
  | _, [] => 0
  | p, text :: rest => count p text + sumOver count (p.takeText text) rest

/-- Counting over one more text adds what it counts for on the project so far. -/
theorem sumOver_concat (count : Project → String → Nat) (p : Project) (texts : List String)
    (text : String) :
    sumOver count p (texts ++ [text]) =
      sumOver count p texts + count (texts.foldl takeText p) text := by
  induction texts generalizing p with
  | nil => simp [sumOver]
  | cons t rest ih => rw [List.cons_append, sumOver, sumOver, ih, List.foldl_cons, Nat.add_assoc]

/-- **Every entry of the texts is accepted or rejected.** -/
theorem sumOver_accepted_add_rejected (p : Project) (texts : List String) :
    sumOver accepted p texts + sumOver rejected p texts = (texts.map Frame.entries).sum := by
  induction texts generalizing p with
  | nil => rfl
  | cons text rest ih =>
    have htext := accepted_add_rejected p text
    have hrest := ih (p.takeText text)
    rw [sumOver, sumOver, List.map_cons, List.sum_cons]
    omega

/-- Some project with that workflow. -/
def carrying (w : Workflow) : Project :=
  { id := 0, name := "", owner := 0, updatedAt := default, thumbnail := none, workflow := w }

end Project

/-- The workflow after the frame of a text. -/
def Workflow.takeText (w : Workflow) (text : String) : Workflow :=
  ((Project.carrying w).takeText text).workflow

/-- **Frames act on the workflow**, whatever else is in the project. -/
theorem Project.workflow_takeText (p : Project) (text : String) :
    (p.takeText text).workflow = p.workflow.takeText text := by
  have h : p.workflow = (carrying p.workflow).workflow := rfl
  rw [takeText_eq h]
  rfl

/-- The workflow after texts depends on the workflow before them alone. -/
theorem Project.workflow_foldl_takeText (p : Project) (texts : List String) :
    (texts.foldl takeText p).workflow = texts.foldl Workflow.takeText p.workflow := by
  induction texts generalizing p with
  | nil => rfl
  | cons text rest ih => rw [List.foldl_cons, List.foldl_cons, ih, workflow_takeText]

/-- **A message is taken in** by its patches and its event. -/
theorem Desk.takeMessage_eq (d : Desk) (running : RunningNodes) (m : TaskMessage) :
    d.takeMessage running m =
      ({ d with
          project := (PatchOp.applyAll d.project m.patch).1
          published := d.published ++ m.event?.toList },
        running.hearAll m.event?.toList, (PatchOp.applyAll d.project m.patch).2.length) := by
  unfold takeMessage TaskMessage.event?
  cases m.timer with
  | none => simp [RunningNodes.hearAll]
  | some directive =>
    cases m.nodeId with
    | none => simp [RunningNodes.hearAll]
    | some id =>
      simp only [RunningNodes.record_eq]
      rfl

end GraphSession
