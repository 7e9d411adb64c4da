import GraphSession.Proofs.Task.Stream

/-!
# How a task leaves the slot

A task leaves the slot when the call that follows it is over: the call returns in one of seven ways,
or is given up (`Concludes`). Whichever it is, **the slot is released in that step**, and with the
state that goes with what the call returns (`Monitor.Ending`), whatever the state was before;
nothing else ever takes a task out of the slot (`concludes_of_vacates`).

**Each task leaves once.** The tickets of the tasks that have left, in the order in which they did,
and then the ticket of the task in the slot are the tickets of all tasks that were registered
(`departures_append_ticket?`). Tasks are told apart by their tickets here, so this also holds of
tasks that share an id.

**The guard goes last.** When the slot has been released the guard is still there (`Desk.released`),
and whoever waits for the end of the task waits for its guard. So a cancellation that waits returns
exactly when the task has left.
-/

namespace GraphSession

namespace Desk

variable {d : Desk} {taskId : String} {ticket : Nat}

/-- The desk when a task has left the slot and its guard is still there. -/
def released (d : Desk) (taskId : String) (running : RunningNodes) (outcome : TaskState) : Desk :=
  ((d.publish running.closingEvents).force outcome).vacate taskId

/-- A released task has left the slot, but its guard is still there. -/
theorem slot_released (hactive : d.active = some ⟨taskId, ticket⟩) (running : RunningNodes)
    (outcome : TaskState) :
    (d.released taskId running outcome).slot = ⟨outcome, none, d.slot.unfinished⟩ := by
  have hid : d.activeTaskId? = some taskId := by rw [activeTaskId?, hactive]; rfl
  unfold released vacate
  rw [force_eq, if_pos
    (show (({ d.publish _ with state := outcome } : Desk)).activeTaskId? = _ from hid)]
  rfl

/-- The ticket of the task in the slot. -/
def ticket? (d : Desk) : Option Nat := d.active.map ActiveTask.ticket

end Desk

namespace Monitor

variable {m : Monitor} {d d' : Desk} {o : Outcome}

/-- The channel of the task fails: it cannot be opened, or what comes over it next is a failure. -/
def ChannelFails (m : Monitor) (d : Desk) (e : Failure) : Prop :=
  m.channel? = none ∧ (d.connector.openFor m.taskId).1 = .error e ∨
    ∃ n c, m.channel? = some n ∧ d.connector.channel? n = some c ∧
      c.clientReceive.1 = .frame (.error e)

/-- How a task ends: what its call returns, unless it was given up, and the state of the slot
then. -/
inductive Ending (m : Monitor) (d : Desk) : Option Outcome → TaskState → Prop
  /-- The report is of this task, and carries the state. -/
  | reported (r : TaskReport) (own : r.taskId = m.taskId)
      (state : r.state = .completed ∨ r.state = .timedOut) : Ending m d (some (.ok r)) r.state
  | cancelled : Ending m d (some (.error (.taskCancelled m.taskId))) .cancelled
  /-- The failure is that of the channel. -/
  | failed (e : Failure) (fails : m.ChannelFails d e) : Ending m d (some (.error e)) .errored
  | givenUp : Ending m d none .cancelled

/-- **Every exit is one of these endings**, with the state that its outcome stands for. -/
theorem Exit.ending (h : Exit m d d' o) : m.Ending d (some o) o.state := by
  cases h with
  | unopened => exact .cancelled
  | tooLate => exact .reported _ rfl (.inr rfl)
  | refused opening free time opened =>
    obtain ⟨cause, rfl⟩ := transport_of_openFor opened
    exact .failed _ (.inl ⟨opening.channel?_eq, by rw [opened]⟩)
  | timeUp => exact .reported _ rfl (.inr rfl)
  | closed => exact .reported _ rfl (.inl rfl)
  | failed stage free time channel received =>
    obtain ⟨cause, rfl⟩ := transport_of_clientReceive received
    exact .failed _ (.inr ⟨_, _, by rw [channel?, stage], channel, by rw [received]⟩)
  | drained => exact .cancelled

end Monitor

namespace TaskCourse

variable {w : TaskCourse} {h : TaskHappening} {hs : List TaskHappening} {i j t : Nat} {m : Monitor}
  {o : Option Monitor.Outcome} {a : ActiveTask}

/-- The call that follows a task is over: it returns, or is given up. -/
def Concludes (w : TaskCourse) (h : TaskHappening) (m : Monitor) (o : Option Monitor.Outcome) :
    Prop :=
  ∃ i, w.follower? i = some m ∧
    (h = .drop i ∧ o = none ∨ ∃ r, h = .turn i ∧ o = some r ∧ w.Returns i (.followed r))

/-- A task leaves the slot. -/
structure Releases (w : TaskCourse) (m : Monitor) (st : TaskState) (w' : TaskCourse) : Prop where
  /-- Until then it is in the slot, and has the only guard. -/
  before : w.desk.active = some ⟨m.taskId, m.ticket⟩ ∧ w.desk.slot.unfinished = [m.ticket]
  /-- The state moves and the slot is emptied while the guard is still there. -/
  released : (w.desk.released m.taskId m.running st).slot = ⟨st, none, [m.ticket]⟩
  /-- Then the guard goes; of the rest of the desk, only the channels may change. -/
  desk : w'.desk =
    { w.desk.released m.taskId m.running st with guards := [], connector := w'.desk.connector }
  after : w'.desk.slot = ⟨st, none, []⟩

/-- The seated monitor that leaves releases the slot. -/
theorem Seated.releases {st : TaskState} {w' : TaskCourse} (hi : w.Seated i m)
    (leaves : m.Leaves w.desk st w'.desk) : w.Releases m st w' := by
  have hreleased : (w.desk.released m.taskId m.running st).slot = ⟨st, none, [m.ticket]⟩ := by
    rw [Desk.slot_released hi.active, hi.unfinished]
  have hguards : (w.desk.released m.taskId m.running st).guards.filter
      (fun g ↦ g.ticket ≠ m.ticket) =
      [] := by
    refine List.filter_eq_nil_iff.2 fun g hg ↦ ?_
    have hmem : g.ticket ∈ (w.desk.released m.taskId m.running st).slot.unfinished :=
      List.mem_map_of_mem hg
    rw [hreleased, List.mem_singleton] at hmem
    simp [hmem]
  refine ⟨⟨hi.active, hi.unfinished⟩, hreleased, ?_, leaves.slot hi.active hi.unfinished⟩
  rw [← hguards]
  exact leaves.desk

/-- **The end of a call that follows a task takes the task out of the slot.** -/
theorem releases_of_concludes (seating : w.Seating) (hover : w.Concludes h m o) :
    ∃ st, m.Ending w.desk o st ∧ w.Releases m st (w.step h) := by
  obtain ⟨i, hi, ⟨rfl, rfl⟩ | ⟨r, rfl, rfl, hreturns⟩⟩ := hover
  · refine ⟨_, .givenUp, (seating.of_follower? hi).releases ?_⟩
    rw [step, onCall, call?_of_follower? hi]
    exact m.leaves_abandon w.desk
  · obtain ⟨m', d, hi', hends⟩ | ⟨e, hrefused, -⟩ := exit_of_returns hreturns
    · obtain rfl := Option.some.inj (hi.symm.trans hi')
      have exit := Monitor.exit_of_turn hends
      refine ⟨_, exit.ending, (seating.of_follower? hi).releases ?_⟩
      rw [step_of_ends hi hends]
      exact exit.leaves
    · rw [follower?_of_call? hrefused] at hi
      cases hi

/-- A monitor that is gone after its turn has returned on it. -/
theorem returns_of_follower?_eq_none (hi : w.follower? i = some m)
    (hgone : (w.step (.turn i)).follower? i = none) : ∃ r, w.Returns i (.followed r) := by
  have hc := call?_of_follower? hi
  cases ht : m.turn w.desk with
  | waits =>
    have hsame : w.step (.turn i) = w := by
      rw [step, onCall, hc]
      show w.takeTurn i (.follow m) = w
      rw [takeTurn, TaskCall.turn, ht]
      rfl
    rw [hsame, hi] at hgone
    cases hgone
  | moves d m' =>
    rw [step_of_moves hi ht, follower?_of_update (call?_proceed hc _ _ _),
      Function.update_self] at hgone
    cases hgone
  | ends d r => exact ⟨r, _, d, hc, by rw [TaskCall.turn, ht]; rfl⟩

/-- **Nothing else does.** -/
theorem concludes_of_vacates (seating : w.Seating) (hactive : w.desk.active = some a)
    (hgone : (w.step h).desk.active ≠ some a) :
    ∃ m o, w.Concludes h m o ∧ a = ⟨m.taskId, m.ticket⟩ := by
  have hstep := step_cases w h
  generalize hw' : w.step h = w' at hstep hgone
  cases hstep with
  | enroll taskId free =>
    rw [free] at hactive
    cases hactive
  | move before move =>
    exact absurd ((congrArg Slot.active move.follows.slot).trans hactive) hgone
  | @leave _ _ i m st caller before leaves followers =>
    have ha := Option.some.inj (hactive.symm.trans (seating.of_follower? before).active)
    cases h with
    | turn k =>
      obtain rfl := Option.some.inj caller
      obtain ⟨r, hr⟩ := returns_of_follower?_eq_none before
        (by rw [hw', followers, Function.update_self])
      exact ⟨m, some r, ⟨k, before, .inr ⟨r, rfl, rfl, hr⟩⟩, ha⟩
    | drop k =>
      obtain rfl := Option.some.inj caller
      exact ⟨m, none, ⟨k, before, .inl ⟨rfl, rfl⟩⟩, ha⟩
    | _ => cases caller
  | aside aside => exact absurd (aside.active.trans hactive) hgone

/-! ### Each task leaves once -/

/-- The tickets of the tasks that have left the slot, in the order in which they did. -/
def departures (w : TaskCourse) : List TaskHappening → List Nat
  | [] => []
  | h :: hs =>
    (if (w.step h).desk.active = w.desk.active then [] else w.desk.ticket?.toList) ++
      (w.step h).departures hs

/-- The tasks that leave in a longer course leave in its parts in turn. -/
theorem departures_append (w : TaskCourse) (hs hs' : List TaskHappening) :
    w.departures (hs ++ hs') = w.departures hs ++ (w.run hs).departures hs' := by
  induction hs generalizing w with
  | nil => rfl
  | cons h hs ih =>
    rw [List.cons_append, departures, departures, ih, List.append_assoc]
    rfl

/-- As long as the slot stays the same, nobody has left it. -/
theorem departures_of_eq (hsame : (w.step h).desk.active = w.desk.active) :
    w.departures [h] = [] := by
  rw [departures, if_pos hsame]
  rfl

/-- When the slot changes, the task that was in it has left. -/
theorem departures_of_ne (hne : (w.step h).desk.active ≠ w.desk.active) :
    w.departures [h] = w.desk.ticket?.toList := by
  rw [departures, if_neg hne]
  exact List.append_nil _

/-- **Every task that was registered has left once, or is in the slot.** -/
theorem departures_append_ticket? (p : Project) (timeout : Nat) (hs : List TaskHappening) :
    (ofProject p timeout).departures hs ++ ((ofProject p timeout).run hs).desk.ticket?.toList =
      List.range ((ofProject p timeout).run hs).desk.tickets := by
  induction hs using List.reverseRecOn with
  | nil => rfl
  | append_singleton hs h ih =>
    have seating := seating_run p timeout hs
    rw [departures_append, run_concat]
    generalize (ofProject p timeout).run hs = w at *
    have hstep := step_cases w h
    -- nobody leaves, and nobody comes
    have same : (w.step h).desk.active = w.desk.active → (w.step h).desk.tickets = w.desk.tickets →
        (ofProject p timeout).departures hs ++ w.departures [h] ++ (w.step h).desk.ticket?.toList =
          List.range (w.step h).desk.tickets := fun hactive htickets ↦ by
      rw [departures_of_eq hactive, List.append_nil, Desk.ticket?, hactive, htickets]
      exact ih
    generalize hw' : w.step h = w' at same hstep
    cases hstep with
    | enroll taskId free desk =>
      have hactive : w'.desk.active = some ⟨taskId, w.desk.tickets⟩ := congrArg Desk.active desk
      rw [departures_of_ne (by rw [hw', hactive, free]; nofun), ih, Desk.ticket?, hactive]
      rw [show w'.desk.tickets = w.desk.tickets + 1 from congrArg Desk.tickets desk,
        List.range_succ]
      rfl
    | move before move => exact same (congrArg Slot.active move.follows.slot) move.follows.tickets
    | leave caller before leaves =>
      have seated := seating.of_follower? before
      have hnone : w'.desk.active = none :=
        congrArg Slot.active (leaves.slot seated.active seated.unfinished)
      rw [departures_of_ne (by rw [hw', hnone, seated.active]; nofun), ih, Desk.ticket?, hnone,
        leaves.tickets]
      exact List.append_nil _
    | aside aside => exact same aside.active aside.tickets

/-- The tickets of tasks that have left are those without a guard. -/
theorem mem_departures_iff (p : Project) (timeout : Nat) (hs : List TaskHappening) :
    t ∈ (ofProject p timeout).departures hs ↔
      t < ((ofProject p timeout).run hs).desk.tickets ∧
        ((ofProject p timeout).run hs).desk.isClosed t = true := by
  have hall := departures_append_ticket? p timeout hs
  have seating := seating_run p timeout hs
  generalize (ofProject p timeout).departures hs = gone at hall ⊢
  generalize (ofProject p timeout).run hs = w at *
  rw [Desk.isClosed_iff, ← List.mem_range, ← hall, List.mem_append]
  cases seating with
  | vacant active unfinished => simp [Desk.ticket?, active, unfinished]
  | occupied i m active unfinished =>
    have hticket : w.desk.ticket?.toList = [m.ticket] := by rw [Desk.ticket?, active]; rfl
    -- no ticket is given out twice
    have hnodup : (gone ++ [m.ticket]).Nodup := hticket ▸ hall ▸ List.nodup_range
    have hfresh : m.ticket ∉ gone := fun hmem ↦
      (List.nodup_append.1 hnodup).2.2 _ hmem _ (List.mem_singleton_self _) rfl
    rw [hticket, unfinished, List.mem_singleton]
    refine ⟨fun hmem ↦ ⟨.inl hmem, fun heq ↦ hfresh (heq ▸ hmem)⟩, ?_⟩
    rintro ⟨hmem | heq, hne⟩
    · exact hmem
    · exact absurd heq hne

/-! ### Waiting for the end -/

/-- What a cancellation waits for is a task that was registered. -/
theorem lt_tickets_of_awaitEnd (p : Project) (timeout : Nat) (hs : List TaskHappening)
    (hj : ((ofProject p timeout).run hs).call? j = some (.awaitEnd t)) :
    t < ((ofProject p timeout).run hs).desk.tickets := by
  induction hs using List.reverseRecOn with
  | nil => simp [ofProject, call?, callAt?] at hj
  | append_singleton hs h ih =>
    have seating := seating_run p timeout hs
    rw [run_concat] at hj ⊢
    generalize (ofProject p timeout).run hs = w at *
    refine Nat.lt_of_lt_of_le ?_ (step_cases w h).tickets_le
    cases arises_of_step hj with
    | was before => exact ih before
    | follow taskId last made =>
      rw [TaskCall.monitor] at made
      split at made <;> cases made
    | cancel last made => cases made
    | turn before moves =>
      rcases TaskCall.moves_cases moves with ⟨m, m', -, hc', -⟩ | ⟨ticket, -, hc', hsignal⟩
        <;> cases hc'
      obtain ⟨a, hactive, rfl⟩ := Desk.active_of_signalCancel hsignal
      obtain ⟨i, m, hi, rfl⟩ := seating.of_active hactive
      exact (seating.of_follower? hi).ticket_lt

/-- A cancellation returns exactly when the guard that it waits for is gone. -/
theorem returns_awaitEnd_iff (hj : w.call? j = some (.awaitEnd t)) :
    w.Returns j .cancelled ↔ w.desk.isClosed t = true := by
  constructor
  · rintro ⟨c, d, hc, hends⟩
    obtain rfl := Option.some.inj (hj.symm.trans hc)
    rw [TaskCall.turn] at hends
    split_ifs at hends with hclosed
    exact hclosed
  · intro hclosed
    exact ⟨_, w.desk, hj, by rw [TaskCall.turn, if_pos hclosed]⟩

/-- What becomes of the slot when tasks end. -/
structure ReleasesOnce (w₀ : TaskCourse) : Prop where
  /-- When the call that follows a task is over, the task leaves the slot in that step, and the
  state is the one that goes with what the call returns. -/
  ending : ∀ hs h m o, (w₀.run hs).Concludes h m o →
    ∃ st, m.Ending (w₀.run hs).desk o st ∧ (w₀.run hs).Releases m st ((w₀.run hs).step h)
  /-- A task leaves the slot in no other way. -/
  own : ∀ hs h a, (w₀.run hs).desk.active = some a → ((w₀.run hs).step h).desk.active ≠ some a →
    ∃ m o, (w₀.run hs).Concludes h m o ∧ a = ⟨m.taskId, m.ticket⟩
  /-- Every task that was registered has left the slot once, or is in it. -/
  once : ∀ hs, w₀.departures hs ++ (w₀.run hs).desk.ticket?.toList =
    List.range (w₀.run hs).desk.tickets
  /-- The guard of a task is gone exactly when the task has left. -/
  closed_iff : ∀ hs t, t < (w₀.run hs).desk.tickets →
    ((w₀.run hs).desk.isClosed t = true ↔ t ∈ w₀.departures hs)
  /-- A cancellation that waits for a task returns exactly when the task has left. -/
  awaited_iff : ∀ hs j t, (w₀.run hs).call? j = some (.awaitEnd t) →
    ((w₀.run hs).Returns j .cancelled ↔ t ∈ w₀.departures hs)

/-- **Every task leaves the slot once, by its own end,** in every course. -/
theorem tasks_leave_once (p : Project) (timeout : Nat) : (ofProject p timeout).ReleasesOnce where
  ending hs _ _ _ := releases_of_concludes (seating_run p timeout hs)
  own hs _ _ := concludes_of_vacates (seating_run p timeout hs)
  once := departures_append_ticket? p timeout
  closed_iff hs t ht := by
    rw [mem_departures_iff]
    exact (and_iff_right ht).symm
  awaited_iff hs j t hj := by
    rw [returns_awaitEnd_iff hj, mem_departures_iff]
    exact (and_iff_right (lt_tickets_of_awaitEnd p timeout hs hj)).symm

/-- A task is given up, another of the same id completes, and a third is in the slot. -/
def namesakes : List TaskHappening :=
  [.monitor "t", .drop 0, .monitor "t", .turn 1, .serve (.close 0), .turn 1, .monitor "t"]

example : (ofProject (.carrying .empty) 1000).departures namesakes = [0, 1] ∧
    ((ofProject (.carrying .empty) 1000).run namesakes).desk.active = some ⟨"t", 2⟩ := by
  decide +kernel

end TaskCourse

end GraphSession
