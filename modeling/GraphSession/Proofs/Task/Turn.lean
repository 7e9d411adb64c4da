import Mathlib.Tactic.SplitIfs
import GraphSession.Proofs.Channel.Lines
import GraphSession.Proofs.Task.Frames
import GraphSession.Proofs.Task.Slot

/-!
# What a monitor does on its turn

A turn of a monitor that goes on is one of five moves (`Monitor.Move`), and one that ends is one of
seven exits (`Monitor.Exit`). Each of them says when it happens and what it leaves, on the desk and
of the monitor; `move_of_turn` and `exit_of_turn` are the only proofs that look into the turn.

**A text is taken in only by a task that may go on.** Of all moves only `take` reads a text, and it
asks that the task has not been told to end and that its time is not up. `intake?` says which text
this is, from the desk alone.

**The deadline is fixed at the first turn.** A monitor that has not had one yet counts its time from
now (`IsOpening`); from then on the deadline is part of its stage, and no move changes it.
-/

namespace GraphSession

/-- A channel on which the client has sent the signal to cancel, if it still can. -/
def Channel.signalled (c : Channel) : Channel :=
  match c.clientSend cancelSignal with
  | .ok c' => c'
  | .error _ => c

theorem Channel.taskId_signalled (c : Channel) : c.signalled.taskId = c.taskId := by
  unfold signalled
  split
  · exact taskId_clientSend ‹_›
  · rfl

/-- The signal goes out, or nothing does. -/
theorem Channel.toServer_signalled (c : Channel) :
    c.signalled.toServer = c.toServer ∨ c.signalled.toServer = c.toServer ++ [cancelSignal] := by
  unfold signalled clientSend
  split_ifs
  · exact .inr rfl
  · exact .inl rfl

/-- Over one channel at most. -/
theorem Connector.unheard_signalled (c : Connector) (n k : Nat) :
    (c.onChannel n Channel.signalled).unheard k = c.unheard k ∨
      n = k ∧ (c.onChannel n Channel.signalled).unheard k = c.unheard k ++ [cancelSignal] := by
  rw [unheard, unheard, channel?_onChannel]
  by_cases hk : n = k
  · rw [if_pos hk]
    cases c.channel? k with
    | none => exact .inl rfl
    | some ch =>
      rcases ch.toServer_signalled with h | h
      · exact .inl h
      · exact .inr ⟨hk, h⟩
  · rw [if_neg hk]
    exact .inl rfl

namespace Monitor

/-- The channel is not open yet, and the opening may take until then. -/
inductive IsOpening (m : Monitor) (d : Desk) : Nat → Prop
  /-- The time begins to count. -/
  | first (stage : m.stage = .registered) : IsOpening m d (d.now + d.timeout)
  | later {deadline : Nat} (stage : m.stage = .opening deadline) : IsOpening m d deadline

/-- What a turn that goes on does, and which text it takes in. -/
inductive Move (m : Monitor) (d : Desk) : Option String → Desk → Monitor → Prop
  /-- The opening takes longer than this turn. -/
  | linger {deadline : Nat} (opening : m.IsOpening d deadline)
      (free : d.isCancelled m.ticket = false) (time : d.now < deadline) :
      Move m d none d { m with stage := .opening deadline }
  /-- The channel is opened. -/
  | connect {deadline n : Nat} {c : Connector} (opening : m.IsOpening d deadline)
      (free : d.isCancelled m.ticket = false) (time : d.now < deadline)
      (opened : d.connector.openFor m.taskId = (.ok n, c)) :
      Move m d none { d with connector := c } { m with stage := .streaming deadline n [] 0 }
  /-- A text is taken in. -/
  | take {deadline n rejected : Nat} {messages : List TaskMessage} {c c' : Channel} {text : String}
      (stage : m.stage = .streaming deadline n messages rejected)
      (free : d.isCancelled m.ticket = false) (time : d.now < deadline)
      (channel : d.connector.channel? n = some c)
      (received : c.clientReceive = (.frame (.ok text), c')) :
      Move m d (some text)
        { d.onChannel n (fun _ ↦ c') with
          project := d.project.takeText text
          published := d.published ++ (Frame.event? text).toList }
        { m with
          running := m.running.hearAll (Frame.event? text).toList
          stage := .streaming deadline n (messages ++ (Frame.message? text).toList)
            (rejected + d.project.rejected text) }
  /-- The server is told that the task is cancelled. -/
  | signal {deadline n rejected : Nat} {messages : List TaskMessage}
      (stage : m.stage = .streaming deadline n messages rejected)
      (told : d.isCancelled m.ticket = true) :
      Move m d none (d.onChannel n Channel.signalled)
        { m with stage := .draining n (d.now + cancelGrace) }
  /-- A text is thrown away. -/
  | discard {n graceEnd : Nat} {c c' : Channel} {text : String}
      (stage : m.stage = .draining n graceEnd)
      (channel : d.connector.channel? n = some c)
      (received : c.clientReceive = (.frame (.ok text), c')) :
      Move m d none (d.onChannel n fun _ ↦ c') m

/-- How a turn that returns ends the task. -/
inductive Exit (m : Monitor) (d : Desk) : Desk → Outcome → Prop
  /-- The task was told to end before the channel was open. -/
  | unopened {deadline : Nat} (opening : m.IsOpening d deadline)
      (told : d.isCancelled m.ticket = true) : Exit m d (m.finish d .cancelled) m.cancelledError
  /-- The time was up before the channel was open. -/
  | tooLate {deadline : Nat} (opening : m.IsOpening d deadline)
      (free : d.isCancelled m.ticket = false) (time : deadline ≤ d.now) :
      Exit m d (m.finish d .timedOut) (.ok ⟨m.taskId, .timedOut, [], 0⟩)
  /-- The channel could not be opened. -/
  | refused {deadline : Nat} {c : Connector} {e : Failure} (opening : m.IsOpening d deadline)
      (free : d.isCancelled m.ticket = false) (time : d.now < deadline)
      (opened : d.connector.openFor m.taskId = (.error e, c)) :
      Exit m d (m.finish { d with connector := c } .errored) (.error e)
  /-- The time is up. -/
  | timeUp {deadline n rejected : Nat} {messages : List TaskMessage}
      (stage : m.stage = .streaming deadline n messages rejected)
      (free : d.isCancelled m.ticket = false) (time : deadline ≤ d.now) :
      Exit m d (m.leave d n .timedOut) (.ok ⟨m.taskId, .timedOut, messages, rejected⟩)
  /-- The server has closed the channel. -/
  | closed {deadline n rejected : Nat} {messages : List TaskMessage} {c c' : Channel}
      (stage : m.stage = .streaming deadline n messages rejected)
      (free : d.isCancelled m.ticket = false) (time : d.now < deadline)
      (channel : d.connector.channel? n = some c) (received : c.clientReceive = (.closed, c')) :
      Exit m d (m.leave d n .completed) (.ok ⟨m.taskId, .completed, messages, rejected⟩)
  /-- The channel has failed. -/
  | failed {deadline n rejected : Nat} {messages : List TaskMessage} {c c' : Channel} {e : Failure}
      (stage : m.stage = .streaming deadline n messages rejected)
      (free : d.isCancelled m.ticket = false) (time : d.now < deadline)
      (channel : d.connector.channel? n = some c)
      (received : c.clientReceive = (.frame (.error e), c')) :
      Exit m d (m.leave d n .errored) (.error e)
  /-- The server has ended a cancelled task, or its grace is over. -/
  | drained {n graceEnd : Nat} (stage : m.stage = .draining n graceEnd) :
      Exit m d (m.leave d n .cancelled) m.cancelledError

/-- The state of the slot that an outcome stands for. -/
def Outcome.state : Outcome → TaskState
  | .ok r => r.state
  | .error e => if e.isCancelled then .cancelled else .errored

/-- An outcome that a monitor can have: a task that has ended somehow, or was cancelled, or whose
channel has failed. -/
def Outcome.IsProper : Outcome → Prop
  | .ok r => r.state.isTerminal = true
  | .error e => e.isCancelled = true ∨ ∃ cause, e = .transport cause

theorem Outcome.IsProper.isTerminal {o : Outcome} (h : o.IsProper) : o.state.isTerminal = true := by
  rcases o with e | r
  · by_cases he : e.isCancelled = true <;> simp [Outcome.state, he] <;> rfl
  · exact h

/-- What a turn is, if the monitor does not have to wait. -/
inductive Takes (m : Monitor) (d : Desk) : Turn Desk Monitor Outcome → Prop
  | waits : Takes m d .waits
  | moves {text : Option String} {d' : Desk} {m' : Monitor} (move : Move m d text d' m') :
      Takes m d (.moves d' m')
  | ends {d' : Desk} {o : Outcome} (exit : Exit m d d' o) : Takes m d (.ends d' o)

/-- The text that a monitor takes in when it is its turn. -/
def intake? (m : Monitor) (d : Desk) : Option String :=
  match m.stage with
  | .streaming deadline channel _ _ =>
    if d.isCancelled m.ticket then none
    else if deadline ≤ d.now then none
    else
      match (d.connector.channel? channel).map Channel.clientReceive with
      | some (.frame (.ok text), _) => some text
      | _ => none
  | _ => none

variable {d d' : Desk} {m m' : Monitor} {o : Outcome} {deadline : Nat}

/-- **A monitor that begins** is of the task that is in the slot now. -/
theorem eq_of_register {taskId : String} (h : register d taskId = .ok (m, d')) :
    d.active = none ∧ m = registered taskId d.tickets ∧ d' = d.occupied taskId := by
  unfold register at h
  cases hd : d.register taskId with
  | error e =>
    rw [hd] at h
    cases h
  | ok r =>
    obtain ⟨hactive, hn, hocc⟩ := Desk.eq_of_register hd
    rw [hd] at h
    obtain ⟨rfl, rfl⟩ := Prod.mk.inj (Except.ok.inj h)
    exact ⟨hactive, by rw [hn], hocc⟩

/-! ### The turns -/

/-- The guards of a turn, in the order in which it looks at them. -/
theorem guards_cases (m : Monitor) (d : Desk) (deadline : Nat) :
    d.isCancelled m.ticket = true ∨
      d.isCancelled m.ticket = false ∧ deadline ≤ d.now ∨
      d.isCancelled m.ticket = false ∧ d.now < deadline := by
  rcases Bool.eq_false_or_eq_true (d.isCancelled m.ticket) with h | h
  · exact .inl h
  · rcases Nat.lt_or_ge d.now deadline with hlt | hle
    · exact .inr (.inr ⟨h, hlt⟩)
    · exact .inr (.inl ⟨h, hle⟩)

/-- A turn while the channel is being opened is a move or an exit. -/
theorem takes_turnOpening (h : m.IsOpening d deadline) : m.Takes d (m.turnOpening d deadline) := by
  unfold turnOpening
  rcases guards_cases m d deadline with told | ⟨free, time⟩ | ⟨free, time⟩
  · rw [if_pos told]
    exact .ends (.unopened h told)
  · rw [if_neg (by simp [free]), if_pos time]
    exact .ends (.tooLate h free time)
  · rw [if_neg (by simp [free]), if_neg (by omega)]
    split_ifs
    · exact .waits
    · rcases hopened : d.connector.openFor m.taskId with ⟨_ | n, c⟩
      · exact .ends (.refused h free time hopened)
      · exact .moves (.connect h free time hopened)

/-- An opening is waited for only while the task may go on. -/
theorem linger_of_waits (h : m.IsOpening d deadline) (hwaits : m.turnOpening d deadline = .waits) :
    Move m d none d { m with stage := .opening deadline } := by
  unfold turnOpening at hwaits
  rcases guards_cases m d deadline with told | ⟨free, time⟩ | ⟨free, time⟩
  · rw [if_pos told] at hwaits
    cases hwaits
  · rw [if_neg (by simp [free]), if_pos time] at hwaits
    cases hwaits
  · exact .linger h free time

/-- The first turn of a monitor is a move or an exit. -/
theorem takes_turnRegistered (h : m.stage = .registered) : m.Takes d (m.turnRegistered d) := by
  have opening : m.IsOpening d (d.now + d.timeout) := .first h
  have takes := takes_turnOpening opening
  unfold turnRegistered
  split
  · exact .moves (linger_of_waits opening ‹_›)
  · exact takes

/-- A text that is no frame is taken in like any other; it only has nothing in it. -/
theorem takeFrame_eq (m : Monitor) (d : Desk) (deadline n : Nat) (messages : List TaskMessage)
    (rejected : Nat) (text : String) :
    m.takeFrame d deadline n messages rejected text =
      .moves
        { d with
          project := d.project.takeText text
          published := d.published ++ (Frame.event? text).toList }
        { m with
          running := m.running.hearAll (Frame.event? text).toList
          stage := .streaming deadline n (messages ++ (Frame.message? text).toList)
            (rejected + d.project.rejected text) } := by
  unfold takeFrame
  split
  · rename_i h
    rw [Project.takeText_of_none h, Frame.event?_of_none h, Frame.message?_of_none h,
      Project.rejected_of_none h]
    simp [RunningNodes.hearAll]
  · rename_i f h
    rw [Project.takeText_of_some h, Frame.event?_of_some h, Frame.message?_of_some h,
      Project.rejected_of_some h, Desk.takeMessage_eq, Option.toList_some, ← Nat.add_assoc]

/-- A turn of a monitor that takes in texts is a move, an exit or a wait. -/
theorem takes_turnStreaming {n rejected : Nat} {messages : List TaskMessage}
    (h : m.stage = .streaming deadline n messages rejected) :
    m.Takes d (m.turnStreaming d deadline n messages rejected) := by
  unfold turnStreaming
  rcases guards_cases m d deadline with told | ⟨free, time⟩ | ⟨free, time⟩
  · rw [if_pos told]
    exact .moves (.signal h told)
  · rw [if_neg (by simp [free]), if_pos time]
    exact .ends (.timeUp h free time)
  · rw [if_neg (by simp [free]), if_neg (by omega)]
    split
    · exact .waits
    · rename_i c hc
      split
      · exact .waits
      · rw [takeFrame_eq]
        exact .moves (.take h free time hc ‹_›)
      · exact .ends (.failed h free time hc ‹_›)
      · exact .ends (.closed h free time hc ‹_›)

/-- A turn of a monitor that throws texts away is a move, an exit or a wait. -/
theorem takes_turnDraining {n graceEnd : Nat} (h : m.stage = .draining n graceEnd) :
    m.Takes d (m.turnDraining d n graceEnd) := by
  unfold turnDraining
  split
  · exact .waits
  · rename_i c hc
    split
    · exact .moves (.discard h hc ‹_›)
    · split_ifs
      · exact .ends (.drained h)
      · exact .waits
    · exact .ends (.drained h)

/-- **A turn** goes on by a move, ends by an exit, or waits. -/
theorem takes_turn (m : Monitor) (d : Desk) : m.Takes d (m.turn d) := by
  unfold turn
  cases h : m.stage with
  | registered => exact takes_turnRegistered h
  | opening deadline => exact takes_turnOpening (.later h)
  | streaming deadline n messages rejected => exact takes_turnStreaming h
  | draining n graceEnd => exact takes_turnDraining h

/-! ### Who takes in a text -/

/-- **A text is taken in** by a monitor that streams, is not told to end and has time left. -/
theorem intake?_of_received {n rejected : Nat} {messages : List TaskMessage} {c c' : Channel}
    {text : String} (stage : m.stage = .streaming deadline n messages rejected)
    (free : d.isCancelled m.ticket = false) (time : d.now < deadline)
    (channel : d.connector.channel? n = some c)
    (received : c.clientReceive = (.frame (.ok text), c')) :
    m.intake? d = some text := by
  simp only [intake?, stage]
  rw [if_neg (by simp [free]), if_neg (by omega), channel, Option.map_some, received]

/-- And by no other. -/
theorem received_of_intake? {text : String} (h : m.intake? d = some text) :
    ∃ deadline n messages rejected c c', m.stage = .streaming deadline n messages rejected ∧
      d.isCancelled m.ticket = false ∧ d.now < deadline ∧ d.connector.channel? n = some c ∧
      c.clientReceive = (.frame (.ok text), c') := by
  unfold intake? at h
  split at h
  · rename_i deadline n messages rejected hstage
    split_ifs at h with hcancelled htime
    split at h
    · rename_i hreceived
      obtain ⟨c, hc, hreceived⟩ := Option.map_eq_some_iff.1 hreceived
      obtain rfl := Option.some.inj h
      exact ⟨deadline, n, messages, rejected, c, _, hstage, by simpa using hcancelled, by omega, hc,
        hreceived⟩
    · cases h
  · cases h

/-- A monitor takes nothing in where the next text is not to be had. -/
theorem intake?_eq_none (h : ∀ deadline n messages rejected c text c',
    m.stage = .streaming deadline n messages rejected → d.isCancelled m.ticket = false →
    d.now < deadline → d.connector.channel? n = some c →
    c.clientReceive ≠ (.frame (.ok text), c')) :
    m.intake? d = none := by
  refine Option.eq_none_iff_forall_ne_some.2 fun text htext ↦ ?_
  obtain ⟨deadline, n, messages, rejected, c, c', stage, free, time, channel, received⟩ :=
    received_of_intake? htext
  exact h _ _ _ _ _ _ _ stage free time channel received

theorem IsOpening.channel?_eq (h : m.IsOpening d deadline) : m.channel? = none := by
  cases h with
  | first stage | later stage => rw [channel?, stage]

theorem IsOpening.intake? (h : m.IsOpening d deadline) : m.intake? d = none := by
  refine intake?_eq_none fun _ _ _ _ _ _ _ stage ↦ ?_
  cases h with
  | first registered => simp [registered] at stage
  | later opening => simp [opening] at stage

/-- A move says which text was taken in. -/
theorem Move.intake?_eq {text : Option String} (h : Move m d text d' m') : m.intake? d = text := by
  cases h with
  | linger opening => exact opening.intake?
  | connect opening => exact opening.intake?
  | take stage free time channel received =>
    exact intake?_of_received stage free time channel received
  | signal stage told => exact intake?_eq_none fun _ _ _ _ _ _ _ _ free ↦ by simp [told] at free
  | discard stage => exact intake?_eq_none fun _ _ _ _ _ _ _ stage' ↦ by simp [stage] at stage'

/-- A task that ends takes nothing in on the way. -/
theorem Exit.intake?_eq (h : Exit m d d' o) : m.intake? d = none := by
  cases h with
  | unopened opening => exact opening.intake?
  | tooLate opening => exact opening.intake?
  | refused opening => exact opening.intake?
  | timeUp stage free time =>
    refine intake?_eq_none fun _ _ _ _ _ _ _ stage' _ time' ↦ ?_
    rw [stage] at stage'
    obtain ⟨rfl, -⟩ := MonitorStage.streaming.inj stage'
    omega
  | closed stage free time channel received | failed stage free time channel received =>
    refine intake?_eq_none fun _ _ _ _ _ _ _ stage' _ _ channel' received' ↦ ?_
    rw [stage] at stage'
    obtain ⟨-, rfl, -⟩ := MonitorStage.streaming.inj stage'
    obtain rfl := Option.some.inj (channel.symm.trans channel')
    simp [received] at received'
  | drained stage => exact intake?_eq_none fun _ _ _ _ _ _ _ stage' ↦ by simp [stage] at stage'

/-! ### Turns by their kind -/

/-- A turn that goes on is a move. -/
theorem move_of_turn (h : m.turn d = .moves d' m') : Move m d (m.intake? d) d' m' := by
  have takes := m.takes_turn d
  rw [h] at takes
  cases takes with
  | moves move => exact move.intake?_eq ▸ move

/-- A turn that returns is an exit. -/
theorem exit_of_turn (h : m.turn d = .ends d' o) : Exit m d d' o := by
  have takes := m.takes_turn d
  rw [h] at takes
  cases takes with
  | ends exit => exact exit

/-! ### What a move leaves -/

/-- The listeners are told of the event of the text, and of nothing else. -/
theorem Move.published {text : Option String} (h : Move m d text d' m') :
    d'.published = d.published ++ (text.bind Frame.event?).toList := by
  cases h with
  | take => rfl
  | _ => exact (List.append_nil _).symm

/-- And that event is all that the monitor hears. -/
theorem Move.running {text : Option String} (h : Move m d text d' m') :
    m'.running = m.running.hearAll (text.bind Frame.event?).toList := by
  cases h <;> rfl

theorem Move.now {text : Option String} (h : Move m d text d' m') : d'.now = d.now := by
  cases h <;> rfl

theorem Move.timeout {text : Option String} (h : Move m d text d' m') : d'.timeout = d.timeout := by
  cases h <;> rfl

/-! ### What the end of a task leaves -/

/-- A task has ended in a state: the desk is that after `finish`, but for its channels, and on these
nothing was sent or taken. -/
structure Leaves (m : Monitor) (d : Desk) (st : TaskState) (d' : Desk) : Prop where
  terminal : st.isTerminal = true
  desk : d' = { m.finish d st with connector := d'.connector }
  taskIds : d'.connector.taskIds = d.connector.taskIds
  waiting : d'.connector.waiting = d.connector.waiting
  unheard : d'.connector.unheard = d.connector.unheard

namespace Leaves

variable {st : TaskState}

/-- A monitor that finishes leaves the desk as a terminal state leaves it. -/
theorem of_finish (m : Monitor) (d : Desk) (terminal : st.isTerminal = true) :
    m.Leaves d st (m.finish d st) := by
  refine ⟨terminal, rfl, ?_, ?_, ?_⟩ <;> rw [finish, Desk.finish_eq]

/-- The opening was refused: then there is one refusal less, and no channel more. -/
theorem of_refusal {c : Connector} {e : Failure}
    (h : d.connector.openFor m.taskId = (.error e, c)) :
    m.Leaves d .errored (m.finish { d with connector := c } .errored) := by
  refine ⟨rfl, ?_, ?_, ?_, ?_⟩
  · simp only [finish, Desk.finish_eq]
    rfl
  · rcases Connector.taskIds_of_openFor h with ⟨-, hids⟩ | ⟨hok, -⟩
    · rw [finish, Desk.finish_eq]
      exact hids
    · cases hok
  · rw [finish, Desk.finish_eq]
    exact funext (Connector.elim_of_openFor (g := Channel.toClient) rfl h)
  · rw [finish, Desk.finish_eq]
    exact funext (Connector.elim_of_openFor (g := Channel.toServer) rfl h)

/-- The channel is closed from this side. -/
theorem of_leave (m : Monitor) (d : Desk) (n : Nat) (terminal : st.isTerminal = true) :
    m.Leaves d st (m.leave d n st) := by
  have h := of_finish m d terminal
  refine ⟨terminal, rfl, ?_, ?_, ?_⟩
  · rw [← h.taskIds]
    exact Connector.taskIds_onChannel fun ch _ ↦ ch.taskId_clientClose
  · rw [← h.waiting]
    exact funext (Connector.elim_onChannel (f := Channel.clientClose) (g := Channel.toClient)
      fun _ _ ↦ rfl)
  · rw [← h.unheard]
    exact funext (Connector.elim_onChannel (f := Channel.clientClose) (g := Channel.toServer)
      fun _ _ ↦ rfl)

/-- The desk after a task has ended, in full. -/
theorem eq_of_fields (h : m.Leaves d st d') :
    d' = { d with
      published := d.published ++ m.running.closingEvents
      state := st
      active := if d.activeTaskId? = some m.taskId then none else d.active
      guards := d.guards.filter fun g ↦ g.ticket ≠ m.ticket
      connector := d'.connector } := by
  have hdesk := h.desk
  rw [finish, Desk.finish_eq] at hdesk
  exact hdesk

theorem project (h : m.Leaves d st d') : d'.project = d.project := by rw [h.eq_of_fields]

theorem state (h : m.Leaves d st d') : d'.state = st := by rw [h.eq_of_fields]

theorem tickets (h : m.Leaves d st d') : d'.tickets = d.tickets := by rw [h.eq_of_fields]

theorem now (h : m.Leaves d st d') : d'.now = d.now := by rw [h.eq_of_fields]

theorem timeout (h : m.Leaves d st d') : d'.timeout = d.timeout := by rw [h.eq_of_fields]

theorem published (h : m.Leaves d st d') :
    d'.published = d.published ++ m.running.closingEvents := by rw [h.eq_of_fields]

/-- The task that ends is the one in the slot. -/
theorem slot (h : m.Leaves d st d') (hactive : d.active = some ⟨m.taskId, m.ticket⟩)
    (hunfinished : d.slot.unfinished = [m.ticket]) : d'.slot = ⟨st, none, []⟩ := by
  rw [h.desk]
  exact Desk.slot_finish hactive hunfinished m.running st

end Leaves

/-- A channel fails for reasons of its own, never because a task was cancelled. -/
theorem transport_of_openFor {c c' : Connector} {taskId : String} {e : Failure}
    (h : c.openFor taskId = (.error e, c')) : ∃ cause, e = .transport cause := by
  unfold Connector.openFor at h
  split_ifs at h
  · obtain ⟨he, -⟩ := Prod.mk.inj h
    exact ⟨_, (Except.error.inj he).symm⟩
  · cases h

/-- What a channel fails with is a matter of transport. -/
theorem transport_of_clientReceive {c c' : Channel} {e : Failure}
    (h : c.clientReceive = (.frame (.error e), c')) : ∃ cause, e = .transport cause := by
  unfold Channel.clientReceive at h
  split at h
  · cases h
  · obtain ⟨he, -⟩ := Prod.mk.inj h
    exact ⟨_, (Except.error.inj (Received.frame.inj he)).symm⟩
  · split_ifs at h <;> cases h

/-- A turn that returns leaves the desk in the state that its outcome stands for. -/
theorem Exit.leaves (h : Exit m d d' o) : m.Leaves d o.state d' := by
  have herrored : ∀ {e : Failure}, (∃ cause, e = .transport cause) →
      Outcome.state (.error e) = .errored := by
    rintro _ ⟨cause, rfl⟩
    rfl
  cases h with
  | unopened => exact .of_finish m d rfl
  | tooLate => exact .of_finish m d rfl
  | refused opening free time opened =>
    rw [herrored (transport_of_openFor opened)]
    exact .of_refusal opened
  | timeUp => exact .of_leave m d _ rfl
  | closed => exact .of_leave m d _ rfl
  | failed stage free time channel received =>
    rw [herrored (transport_of_clientReceive received)]
    exact .of_leave m d _ rfl
  | drained => exact .of_leave m d _ rfl

/-- Every exit of a monitor is a proper outcome. -/
theorem Exit.proper (h : Exit m d d' o) : o.IsProper := by
  cases h with
  | unopened => exact .inl rfl
  | tooLate => exact rfl
  | refused opening free time opened => exact .inr (transport_of_openFor opened)
  | timeUp => exact rfl
  | closed => exact rfl
  | failed stage free time channel received => exact .inr (transport_of_clientReceive received)
  | drained => exact .inl rfl

/-- A monitor that is given up leaves its task cancelled. -/
theorem leaves_abandon (m : Monitor) (d : Desk) : m.Leaves d .cancelled (m.abandon d) := by
  unfold abandon
  split
  · exact .of_finish m d rfl
  · exact .of_leave m d _ rfl

end Monitor

end GraphSession
