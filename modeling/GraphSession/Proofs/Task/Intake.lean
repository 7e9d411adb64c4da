import GraphSession.Proofs.Channel.Lines
import GraphSession.Proofs.Task.Slot
import GraphSession.Proofs.Task.Turn

/-!
# What a turn of a monitor leaves

A turn of a monitor is one of three things: it takes in the text of a frame, it ends, or it leaves
the project and the slot as they are. For those who do not care which move or exit it was,
`follows_of_turn` and `finishes_of_turn` say all that they have to know about a turn.

**Only an intake touches the project.** Whatever else a monitor does on its turn (opening its
channel, telling the server that it is cancelled, throwing frames away, ending) leaves the project
alone, and an intake changes it by the patches of the frame and by nothing else.

**Only an end touches the slot**, and then by `Monitor.finish` with the state that the outcome
stands for (`Outcome.state`).

**Nobody cancels itself.** A monitor ends as cancelled, or tells its server so, only when the mark
on its guard was set before (`isTold`), and no turn of a monitor sets a mark.

**A channel is of one task.** Channels are only ever added, and none changes the task it was opened
for (`Connector.taskIds`). So a monitor that is tuned to a channel of its own task stays tuned.
-/

namespace GraphSession

namespace Monitor

/-- The project after what a monitor has taken in, if anything. -/
def taken (p : Project) (text : Option String) : Project := text.elim p p.takeText

/-- Whether the server has been told that the task is cancelled. -/
def isDraining (m : Monitor) : Bool :=
  match m.stage with
  | .draining _ _ => true
  | _ => false

/-- Whether the task of a monitor has been told to end. -/
def isTold (m : Monitor) (d : Desk) : Bool := m.isDraining || d.isCancelled m.ticket

/-- The channel of a monitor, if it is open, is one of its task, and not one of the first ones. -/
structure Tuned (m : Monitor) (first : Nat) (d : Desk) : Prop where
  first_le : first ≤ d.connector.taskIds.length
  own : ∀ n, m.channel? = some n → first ≤ n ∧ d.connector.taskIds[n]? = some m.taskId

variable {d d' : Desk} {m m' : Monitor} {o : Outcome} {first : Nat}

/-- New channels leave a tuned monitor tuned. -/
theorem Tuned.of_grown (h : m.Tuned first d)
    (hids : d.connector.taskIds <+: d'.connector.taskIds) : m.Tuned first d' := by
  refine ⟨Nat.le_trans h.first_le hids.length_le, fun n hn ↦ ?_⟩
  obtain ⟨hfirst, hid⟩ := h.own n hn
  obtain ⟨added, hadded⟩ := hids
  obtain ⟨hlt, -⟩ := List.getElem?_eq_some_iff.1 hid
  exact ⟨hfirst, by rw [← hadded, List.getElem?_append_left hlt, hid]⟩

/-- A monitor that keeps its channel stays tuned. -/
theorem Tuned.of_channel (h : m.Tuned first d)
    (hids : d'.connector.taskIds = d.connector.taskIds) (hid : m'.taskId = m.taskId)
    (hchannel : m'.channel? = m.channel?) : m'.Tuned first d' := by
  refine ⟨?_, fun k hk ↦ ?_⟩ <;> rw [hids]
  · exact h.first_le
  · rw [hid]
    exact h.own k (hchannel ▸ hk)

/-- **A text that is taken in is the first that waits in a channel of the task.** -/
theorem channel?_of_intake? {text : String} (hm : m.Tuned first d) (h : m.intake? d = some text) :
    ∃ n ch rest, first ≤ n ∧ d.connector.channel? n = some ch ∧ ch.taskId = m.taskId ∧
      ch.toClient = .text text :: rest := by
  obtain ⟨_, n, _, _, c, c', stage, -, -, channel, received⟩ := received_of_intake? h
  obtain ⟨hfirst, hid⟩ := hm.own n (by rw [channel?, stage])
  rw [Connector.taskIds, List.getElem?_map, ← Connector.channel?, channel, Option.map_some] at hid
  exact ⟨n, c, _, hfirst, channel, Option.some.inj hid, Channel.toClient_of_clientReceive received⟩

/-! ### What a turn leaves -/

/-- What a turn that goes on leaves: the same task in the same slot, and the project with what was
taken in. -/
structure Follows (d : Desk) (m : Monitor) (text : Option String) (d' : Desk) (m' : Monitor) :
    Prop where
  slot : d'.slot = d.slot
  tickets : d'.tickets = d.tickets
  taskId : m'.taskId = m.taskId
  ticket : m'.ticket = m.ticket
  project : d'.project = taken d.project text
  taskIds : d.connector.taskIds <+: d'.connector.taskIds
  tuned : ∀ first, m.Tuned first d → m'.Tuned first d'
  guards : d'.guards = d.guards
  /-- A server is told of a cancellation only when there was one. -/
  drained : m'.isDraining = true → m.isTold d = true

/-- What a turn that ends leaves. -/
structure Finishes (d : Desk) (m : Monitor) (o : Outcome) (d' : Desk) : Prop where
  slot : d'.slot = (m.finish d o.state).slot
  tickets : d'.tickets = d.tickets
  project : d'.project = d.project
  taskIds : d.connector.taskIds <+: d'.connector.taskIds
  proper : o.IsProper

/-- A turn of a monitor sets no mark. -/
theorem Follows.isCancelled {text : Option String} (h : Follows d m text d' m') (ticket : Nat) :
    d'.isCancelled ticket = d.isCancelled ticket := by
  rw [Desk.isCancelled, h.guards, Desk.isCancelled]

/-- **A turn that goes on tells nobody to end.** -/
theorem Follows.isTold {text : Option String} (h : Follows d m text d' m')
    (htold : m'.isTold d' = true) : m.isTold d = true := by
  rcases Bool.or_eq_true_iff.1 htold with hdraining | hcancelled
  · exact h.drained hdraining
  · rw [h.isCancelled, h.ticket] at hcancelled
    exact Bool.or_eq_true_iff.2 (.inr hcancelled)

/-- A turn that does not open a channel. -/
theorem Follows.of_desk {text : Option String} (slot : d'.slot = d.slot)
    (tickets : d'.tickets = d.tickets) (guards : d'.guards = d.guards)
    (project : d'.project = taken d.project text)
    (taskIds : d'.connector.taskIds = d.connector.taskIds) (taskId : m'.taskId = m.taskId)
    (ticket : m'.ticket = m.ticket) (channel : m'.channel? = m.channel?)
    (drained : m'.isDraining = true → m.isTold d = true) : Follows d m text d' m' :=
  ⟨slot, tickets, taskId, ticket, project, taskIds ▸ List.prefix_refl _,
    fun _ hm ↦ hm.of_channel taskIds taskId channel, guards, drained⟩

/-- A turn that opens the channel. -/
theorem Follows.of_opening {c : Connector} {n deadline : Nat}
    (h : d.connector.openFor m.taskId = (.ok n, c)) :
    Follows d m none { d with connector := c }
      { m with stage := .streaming deadline n [] 0 } := by
  rcases Connector.taskIds_of_openFor h with ⟨⟨e, he⟩, -⟩ | ⟨hn, hids⟩
  · cases he
  · have hprefix : d.connector.taskIds <+: c.taskIds := hids ▸ List.prefix_append _ _
    refine ⟨rfl, rfl, rfl, rfl, rfl, hprefix, fun first hm ↦ ?_, rfl, nofun⟩
    refine ⟨Nat.le_trans hm.first_le hprefix.length_le, fun k hk ↦ ?_⟩
    obtain rfl := Option.some.inj hk
    rw [hids, Except.ok.inj hn, List.getElem?_concat_length]
    exact ⟨hm.first_le, rfl⟩

/-- Looking for a frame leaves the channel with its task. -/
theorem taskIds_of_received {n : Nat} {c c' : Channel} {received : Received (Except Failure String)}
    (hc : d.connector.channel? n = some c) (h : c.clientReceive = (received, c')) :
    (d.onChannel n fun _ ↦ c').connector.taskIds = d.connector.taskIds := by
  refine Connector.taskIds_onChannel fun ch hch ↦ ?_
  have hid := c.taskId_clientReceive
  rw [h] at hid
  rw [← Option.some.inj (hc.symm.trans hch), ← hid]

/-- A monitor that leaves with a proper outcome has finished. -/
theorem Leaves.finishes (h : m.Leaves d o.state d') (proper : o.IsProper) : Finishes d m o d' := by
  refine ⟨?_, h.tickets, h.project, h.taskIds ▸ List.prefix_refl _, proper⟩
  rw [h.desk]
  rfl

/-! ### The turns -/

/-- **A turn that goes on**: what is taken in, and nothing but that, reaches the project. -/
theorem Move.follows {text : Option String} (h : Move m d text d' m') : Follows d m text d' m' := by
  cases h with
  | linger opening =>
    exact .of_desk rfl rfl rfl rfl rfl rfl rfl (by rw [opening.channel?_eq]; rfl) nofun
  | connect opening free time opened => exact .of_opening opened
  | take stage free time channel received =>
    exact .of_desk rfl rfl rfl rfl (taskIds_of_received channel received) rfl rfl
      (by simp [channel?, stage]) nofun
  | signal stage told =>
    exact .of_desk rfl rfl rfl rfl (Connector.taskIds_onChannel fun ch _ ↦ ch.taskId_signalled)
      rfl rfl (by simp [channel?, stage]) fun _ ↦ Bool.or_eq_true_iff.2 (.inr told)
  | discard stage channel received =>
    exact .of_desk rfl rfl rfl rfl (taskIds_of_received channel received) rfl rfl rfl
      fun _ ↦ by simp [isTold, isDraining, stage]

/-- A turn that goes on keeps the task in the slot, and takes in what the monitor was about to take
in. -/
theorem follows_of_turn (h : m.turn d = .moves d' m') : Follows d m (m.intake? d) d' m' :=
  (move_of_turn h).follows

/-- **A turn that ends** takes nothing in, and finishes the task with the state of its outcome. -/
theorem finishes_of_turn (h : m.turn d = .ends d' o) : Finishes d m o d' :=
  (exit_of_turn h).leaves.finishes (exit_of_turn h).proper

/-- **A task ends as cancelled only when it was told to.** -/
theorem isTold_of_turn {e : Failure} (h : m.turn d = .ends d' (.error e))
    (he : e.isCancelled = true) : m.isTold d = true := by
  cases exit_of_turn h with
  | unopened opening told => exact Bool.or_eq_true_iff.2 (.inr told)
  | refused opening free time opened =>
    obtain ⟨cause, rfl⟩ := transport_of_openFor opened
    cases he
  | failed stage free time channel received =>
    obtain ⟨cause, rfl⟩ := transport_of_clientReceive received
    cases he
  | drained stage => simp [isTold, isDraining, stage]

/-- A monitor that is given up finishes its task as cancelled. -/
theorem finishes_of_abandon : Finishes d m m.cancelledError (m.abandon d) :=
  (leaves_abandon m d).finishes (.inl rfl)

end Monitor

end GraphSession
