import Mathlib.Data.List.Induction
import GraphSession.Proofs.Schedule.Places
import GraphSession.Proofs.Task.Turn
import GraphSession.Task.Calls

/-!
# Courses of a task desk

A course is a desk, the calls that were made on it, and what has happened so far. Anything can
happen next (`TaskHappening`): a submission begins or ends, a task is registered, a cancellation is
called for, some call takes its turn or is given up, servers do their part, somebody else writes to
the project, time passes. **No order is assumed**, so a statement about `TaskCourse.run` for all
lists is a statement about all interleavings; a call whose turn comes while it has to wait does
nothing.

**The past.** Every turn of a monitor, and its being given up, is a deed: the text it took in, if
any, and what it told the listeners. What arrived on the channels and what servers heard on them is
kept too. Nothing on the desk depends on any of this.

**One step, four ways** (`step_cases`). A task is registered (`enroll`), its monitor goes on
(`move`) or ends (`leave`), or the monitors are passed by (`Aside`); in the last case nobody's task
is touched, but for the mark that a cancellation puts on the task in the slot (`CallsOff`).
-/

namespace GraphSession

/-- A turn of a monitor, or its being given up. -/
structure TaskDeed where
  ticket : Nat
  /-- What the monitor took in. -/
  text : Option String
  /-- What the listeners were told. -/
  told : List TimerEvent

/-- What can happen next. -/
inductive TaskHappening where
  /-- A submission begins. -/
  | begin
  /-- A submission ends without a task. -/
  | settle (outcome : TaskState)
  /-- A task is to be registered and followed. -/
  | monitor (taskId : String)
  /-- A cancellation is called for. -/
  | cancel
  /-- It is the turn of a call. -/
  | turn (i : Nat)
  /-- A call is given up. -/
  | drop (i : Nat)
  | serve (m : ServerMove)
  /-- Somebody else writes to the project. -/
  | write (p : Project)
  | wait (ms : Nat)

namespace TaskHappening

/-- Whether somebody other than the monitors writes to the project. -/
def isWrite : TaskHappening → Bool
  | write _ => true
  | _ => false

/-- The call that something happens to. -/
def caller? : TaskHappening → Option Nat
  | turn i | drop i => some i
  | _ => none

end TaskHappening

namespace TaskCall

/-- The monitor of a call that follows a task. -/
def monitor? : TaskCall → Option Monitor
  | follow m => some m
  | _ => none

/-- The text that a call takes in when it is its turn. -/
def intake? (d : Desk) : TaskCall → Option String
  | follow m => m.intake? d
  | _ => none

/-- What a call has done that has changed the desk. -/
def deeds (d d' : Desk) (text : Option String) : TaskCall → List TaskDeed
  | follow m => [⟨m.ticket, text, d'.published.drop d.published.length⟩]
  | _ => []

/-- A call goes on in two ways: it follows its task further, or it has told a task to end and
waits. -/
theorem moves_cases {d d' : Desk} {c c' : TaskCall} (h : c.turn d = .moves d' c') :
    (∃ m m', c = .follow m ∧ c' = .follow m' ∧ m.turn d = .moves d' m') ∨
      ∃ ticket, c = .cancel ∧ c' = .awaitEnd ticket ∧ d.signalCancel = (some ticket, d') := by
  cases c with
  | follow m =>
    rw [turn] at h
    cases ht : m.turn d <;> rw [ht] at h <;> cases h
    exact .inl ⟨_, _, rfl, rfl, ht⟩
  | refused e => cases h
  | cancel =>
    rw [turn] at h
    rcases hsignal : d.signalCancel with ⟨_ | ticket, d₁⟩ <;> rw [hsignal] at h <;> cases h
    exact .inr ⟨_, rfl, rfl, rfl⟩
  | awaitEnd ticket =>
    rw [turn] at h
    split_ifs at h

end TaskCall

/-- A desk, the calls on it, and what has happened on its channels so far. -/
structure TaskCourse where
  desk : Desk
  /-- In the order they were made; none for a call that has returned. -/
  calls : List (Option TaskCall)
  past : List TaskDeed
  /-- What has arrived from servers, by channel. -/
  arrived : List (Nat × ServerFrame)
  /-- What servers have heard, by channel. -/
  heard : List (Nat × String)

namespace TaskCourse

/-- A desk on which nothing was called for. -/
def ofProject (p : Project) (timeout : Nat) : TaskCourse := ⟨.start p timeout, [], [], [], []⟩

/-- A call that has not returned. -/
def call? (w : TaskCourse) (i : Nat) : Option TaskCall := callAt? w.calls i

/-- The monitor of a call that follows a task and has not returned. -/
def follower? (w : TaskCourse) (i : Nat) : Option Monitor := (w.call? i).bind TaskCall.monitor?

/-- A call returns on its turn. -/
def Returns (w : TaskCourse) (i : Nat) (r : TaskResult) : Prop :=
  ∃ c d, w.call? i = some c ∧ c.turn w.desk = .ends d r

/-- A cancellation tells the task of that ticket to end. -/
def CallsOff (w : TaskCourse) (h : TaskHappening) (ticket : Nat) : Prop :=
  ∃ i a, h = .turn i ∧ w.call? i = some .cancel ∧ w.desk.active = some a ∧ a.ticket = ticket

/-- What has been taken in for a task, in order. -/
def textsOf (w : TaskCourse) (ticket : Nat) : List String :=
  w.past.filterMap fun e ↦ if e.ticket = ticket then e.text else none

/-- What the listeners were told for a task, in order. -/
def toldBy (w : TaskCourse) (ticket : Nat) : List TimerEvent :=
  w.past.flatMap fun e ↦ if e.ticket = ticket then e.told else []

/-- What has arrived on a channel, in order. -/
def arrivedOn (w : TaskCourse) (n : Nat) : List ServerFrame := ofChannel w.arrived n

/-- What the client has sent over a channel, in order: what its server has heard, and what waits for
it. -/
def sentOn (w : TaskCourse) (n : Nat) : List String :=
  ofChannel w.heard n ++ w.desk.connector.unheard n

/-- A call has got to another place, or has returned. -/
def proceed (w : TaskCourse) (i : Nat) (c : TaskCall) (d : Desk) (c' : Option TaskCall)
    (text : Option String) : TaskCourse :=
  { w with desk := d, calls := w.calls.set i c', past := w.past ++ c.deeds w.desk d text }

/-- A call takes its turn, if it does not have to wait. -/
def takeTurn (w : TaskCourse) (i : Nat) (c : TaskCall) : TaskCourse :=
  match c.turn w.desk with
  | .waits => w
  | .moves d c' => w.proceed i c d (some c') (c.intake? w.desk)
  | .ends d _ => w.proceed i c d none (c.intake? w.desk)

/-- Does something to a call that has not returned. -/
def onCall (w : TaskCourse) (i : Nat) (f : TaskCall → TaskCourse) : TaskCourse :=
  match w.call? i with
  | none => w
  | some c => f c

/-- A call is made. -/
def launch (w : TaskCourse) (d : Desk) (c : TaskCall) : TaskCourse :=
  { w with desk := d, calls := w.calls ++ [some c] }

/-- A server does its part. -/
def serve (w : TaskCourse) (m : ServerMove) : TaskCourse :=
  { w with
    desk := w.desk.onConnector m.play
    arrived := w.arrived ++ (m.arrival? w.desk.connector).toList
    heard := w.heard ++ (m.heard? w.desk.connector).toList }

/-- What becomes of a course when this happens. -/
def step (w : TaskCourse) : TaskHappening → TaskCourse
  | .begin => { w with desk := w.desk.attempt w.desk.beginSubmission }
  | .settle o => { w with desk := w.desk.attempt (w.desk.finishSubmission o) }
  | .monitor taskId =>
    w.launch (TaskCall.monitor w.desk taskId).2 (TaskCall.monitor w.desk taskId).1
  | .cancel => w.launch w.desk .cancel
  | .turn i => w.onCall i (w.takeTurn i)
  | .drop i => w.onCall i fun c ↦ w.proceed i c (c.abandon w.desk) none none
  | .serve m => w.serve m
  | .write p => { w with desk := { w.desk with project := p } }
  | .wait ms => { w with desk := w.desk.advance ms }

/-- What becomes of a course when all this happens, in this order. -/
def run (w : TaskCourse) (hs : List TaskHappening) : TaskCourse := hs.foldl step w

@[simp] theorem run_nil (w : TaskCourse) : w.run [] = w := rfl

/-- What happens can be cut in two anywhere. -/
theorem run_append (w : TaskCourse) (hs hs' : List TaskHappening) :
    w.run (hs ++ hs') = (w.run hs).run hs' :=
  List.foldl_append

/-- What happens last is a step after all the rest. -/
@[simp] theorem run_concat (w : TaskCourse) (hs : List TaskHappening) (h : TaskHappening) :
    w.run (hs ++ [h]) = (w.run hs).step h := by
  rw [run_append]
  rfl

/-- The ways in which the state of the slot changes while the monitors are passed by. -/
inductive Settles (w : TaskCourse) : TaskHappening → TaskState → Prop
  | same (h : TaskHappening) : Settles w h w.desk.state
  /-- A submission begins, in a slot without a task. -/
  | begin (free : w.desk.active = none) : Settles w .begin .submitting
  | settle (o : TaskState) : Settles w (.settle o) o

/-- What passes the monitors by. Only somebody else writes to the project. -/
structure Aside (w : TaskCourse) (h : TaskHappening) (w' : TaskCourse) : Prop where
  followers : w'.follower? = w.follower?
  past : w'.past = w.past
  active : w'.desk.active = w.desk.active
  unfinished : w'.desk.slot.unfinished = w.desk.slot.unfinished
  state : w.Settles h w'.desk.state
  tickets : w'.desk.tickets = w.desk.tickets
  published : w'.desk.published = w.desk.published
  timeout : w'.desk.timeout = w.desk.timeout
  now : w.desk.now ≤ w'.desk.now
  project : h.isWrite = false → w'.desk.project = w.desk.project
  /-- A mark is set on the guard of a task only when the task is told to end. -/
  marks : ∀ t, w'.desk.isCancelled t = true → w.desk.isCancelled t = true ∨ w.CallsOff h t
  /-- And it stays. -/
  marked : ∀ t, w.desk.isCancelled t = true → w'.desk.isCancelled t = true
  taskIds : w'.desk.connector.taskIds = w.desk.connector.taskIds
  sent : ∀ n, w'.sentOn n = w.sentOn n
  arrived : ∀ n, ∃ new, w'.arrivedOn n = w.arrivedOn n ++ new ∧
    w'.desk.connector.waiting n = w.desk.connector.waiting n ++ new

/-- The four ways in which something happens. -/
inductive Step (w : TaskCourse) : TaskHappening → TaskCourse → Prop
  /-- A task is registered. -/
  | enroll {w' : TaskCourse} (taskId : String) (free : w.desk.active = none)
      (desk : w'.desk = w.desk.occupied taskId)
      (followers : w'.follower? =
        Function.update w.follower? w.calls.length (some (.registered taskId w.desk.tickets)))
      (past : w'.past = w.past) (arrived : w'.arrived = w.arrived) (heard : w'.heard = w.heard) :
      Step w (.monitor taskId) w'
  /-- A monitor goes on. -/
  | move {w' : TaskCourse} {i : Nat} {m m' : Monitor} {text : Option String}
      (before : w.follower? i = some m) (move : m.Move w.desk text w'.desk m')
      (followers : w'.follower? = Function.update w.follower? i (some m'))
      (past : w'.past = w.past ++
        [⟨m.ticket, text, w'.desk.published.drop w.desk.published.length⟩])
      (arrived : w'.arrived = w.arrived) (heard : w'.heard = w.heard) : Step w (.turn i) w'
  /-- A monitor ends, or is given up. -/
  | leave {h : TaskHappening} {w' : TaskCourse} {i : Nat} {m : Monitor} {st : TaskState}
      (caller : h.caller? = some i) (before : w.follower? i = some m)
      (leaves : m.Leaves w.desk st w'.desk)
      (followers : w'.follower? = Function.update w.follower? i none)
      (past : w'.past = w.past ++ [⟨m.ticket, none, m.running.closingEvents⟩])
      (arrived : w'.arrived = w.arrived) (heard : w'.heard = w.heard) : Step w h w'
  /-- The monitors are passed by. -/
  | aside {h : TaskHappening} {w' : TaskCourse} (aside : w.Aside h w') : Step w h w'

variable {w w' : TaskCourse} {h : TaskHappening} {i : Nat}

/-! ### Places of the monitors -/

/-- The monitor in flight is that of the call. -/
theorem follower?_of_call? {c : TaskCall} (hc : w.call? i = some c) :
    w.follower? i = c.monitor? := by
  rw [follower?, hc]
  rfl

/-- One call changes, so one monitor may change. -/
theorem follower?_of_update {c : Option TaskCall} (h : w'.call? = Function.update w.call? i c) :
    w'.follower? = Function.update w.follower? i (c.bind TaskCall.monitor?) :=
  bind_of_update h TaskCall.monitor?

/-- Replacing a call that follows no task by another that follows none. -/
theorem follower?_of_update_none {c : Option TaskCall} (h : w'.call? = Function.update w.call? i c)
    (hi : w.follower? i = none) (hc : c.bind TaskCall.monitor? = none) :
    w'.follower? = w.follower? := by
  rw [follower?_of_update h, hc, ← hi, Function.update_eq_self]

theorem follower?_of_length_le (hi : w.calls.length ≤ i) : w.follower? i = none := by
  rw [follower?, call?, callAt?_of_length_le hi]
  rfl

/-- A monitor in flight is the call of that number. -/
theorem call?_of_follower? {m : Monitor} (hi : w.follower? i = some m) :
    w.call? i = some (.follow m) := by
  obtain ⟨c, hc, hm⟩ := Option.bind_eq_some_iff.1 hi
  cases c with
  | follow => rw [hc, ← Option.some.inj hm]
  | _ => cases hm

/-- A call that is made is in flight under the next number. -/
theorem call?_launch (w : TaskCourse) (d : Desk) (c : TaskCall) :
    (w.launch d c).call? = Function.update w.call? w.calls.length (some c) :=
  callAt?_concat w.calls (some c)

/-- A call that goes on is the only one to. -/
theorem call?_proceed {c : TaskCall} (hc : w.call? i = some c) (d : Desk) (c' : Option TaskCall)
    (text : Option String) : (w.proceed i c d c' text).call? = Function.update w.call? i c' :=
  callAt?_set hc c'

/-- How a call that is in flight has come to where it is. -/
inductive Arises (w : TaskCourse) (j : Nat) (c' : TaskCall) : TaskHappening → Prop
  /-- It was there. -/
  | was {h : TaskHappening} (before : w.call? j = some c') : Arises w j c' h
  /-- It was made. -/
  | follow (taskId : String) (last : j = w.calls.length)
      (made : (TaskCall.monitor w.desk taskId).1 = c') : Arises w j c' (.monitor taskId)
  | cancel (last : j = w.calls.length) (made : c' = .cancel) : Arises w j c' .cancel
  /-- It has taken a turn. -/
  | turn {c : TaskCall} {d : Desk} (before : w.call? j = some c)
      (moves : c.turn w.desk = .moves d c') :
      Arises w j c' (.turn j)

/-- Each call in flight has come to where it is in one of these ways. -/
theorem arises_of_step {j : Nat} {c' : TaskCall} (hj : (w.step h).call? j = some c') :
    w.Arises j c' h := by
  cases h with
  | monitor taskId =>
    rw [step, call?_launch] at hj
    rcases update_eq_some_iff.1 hj with ⟨hlast, hmade⟩ | ⟨-, hj⟩
    · exact .follow taskId hlast (Option.some.inj hmade)
    · exact .was hj
  | cancel =>
    rw [step, call?_launch] at hj
    rcases update_eq_some_iff.1 hj with ⟨hlast, hmade⟩ | ⟨-, hj⟩
    · exact .cancel hlast (Option.some.inj hmade).symm
    · exact .was hj
  | turn i =>
    cases hc : w.call? i with
    | none =>
      rw [step, onCall, hc] at hj
      exact .was hj
    | some c =>
      rw [step, onCall, hc] at hj
      simp only [takeTurn] at hj
      cases ht : c.turn w.desk with
      | waits =>
        rw [ht] at hj
        exact .was hj
      | moves d c₁ =>
        rw [ht] at hj
        rcases update_eq_some_iff.1 (call?_proceed hc d _ _ ▸ hj) with ⟨rfl, hc₁⟩ | ⟨-, hj⟩
        · obtain rfl := Option.some.inj hc₁
          exact .turn hc ht
        · exact .was hj
      | ends d r =>
        rw [ht] at hj
        rcases update_eq_some_iff.1 (call?_proceed hc d _ _ ▸ hj) with ⟨-, hnone⟩ | ⟨-, hj⟩
        · cases hnone
        · exact .was hj
  | drop i =>
    cases hc : w.call? i with
    | none =>
      rw [step, onCall, hc] at hj
      exact .was hj
    | some c =>
      rw [step, onCall, hc] at hj
      rcases update_eq_some_iff.1 (call?_proceed hc _ _ _ ▸ hj) with ⟨-, hnone⟩ | ⟨-, hj⟩
      · cases hnone
      · exact .was hj
  | _ => exact .was hj

/-- What happens to a call need only be looked at while the call has not returned. -/
theorem onCall_induction {P : TaskCourse → Prop} {f : TaskCall → TaskCourse} (hw : P w)
    (hf : ∀ c, w.call? i = some c → P (f c)) : P (w.onCall i f) := by
  unfold onCall
  split
  · exact hw
  · rename_i c hc
    exact hf c hc

/-- Calls are never taken out of their places. -/
theorem length_calls_le (w : TaskCourse) (h : TaskHappening) :
    w.calls.length ≤ (w.step h).calls.length := by
  have proceeds : ∀ {i c d c' text}, w.calls.length ≤ (w.proceed i c d c' text).calls.length :=
    Nat.le_of_eq List.length_set.symm
  cases h with
  | monitor taskId => simp [step, launch]
  | cancel => simp [step, launch]
  | turn i =>
    refine onCall_induction (P := fun w' ↦ w.calls.length ≤ w'.calls.length) (Nat.le_refl _)
      fun c _ ↦ ?_
    unfold takeTurn
    split
    · exact Nat.le_refl _
    · exact proceeds
    · exact proceeds
  | drop i =>
    exact onCall_induction (P := fun w' ↦ w.calls.length ≤ w'.calls.length) (Nat.le_refl _)
      fun c _ ↦ proceeds
  | _ => exact Nat.le_refl _

/-! ### The monitors are passed by -/

namespace Aside

/-- Nothing happens on the channels or to the task in the slot. -/
theorem of_desk {st : TaskState} {p : Project} {now : Nat} {calls : List (Option TaskCall)}
    (followers : ({ w with calls := calls } : TaskCourse).follower? = w.follower?)
    (state : w.Settles h st) (time : w.desk.now ≤ now)
    (project : h.isWrite = false → p = w.desk.project) :
    w.Aside h
      { w with desk := { w.desk with state := st, project := p, now := now }, calls := calls } :=
  ⟨followers, rfl, rfl, rfl, state, rfl, rfl, rfl, time, project, fun _ ↦ .inl, fun _ ↦ id, rfl,
    fun _ ↦ rfl, fun _ ↦ ⟨[], by simp [arrivedOn], by simp [Connector.waiting]⟩⟩

/-- The calls change, but no call that follows a task does. -/
theorem of_calls {calls : List (Option TaskCall)}
    (h' : ({ w with calls := calls } : TaskCourse).follower? = w.follower?) :
    w.Aside h { w with calls := calls } :=
  of_desk h' (.same h) (Nat.le_refl _) fun _ ↦ rfl

theorem refl (w : TaskCourse) (h : TaskHappening) : w.Aside h w := of_calls rfl

/-- The state of the slot changes. -/
theorem of_state {st : TaskState} (hst : w.Settles h st) :
    w.Aside h { w with desk := { w.desk with state := st } } :=
  of_desk rfl hst (Nat.le_refl _) fun _ ↦ rfl

/-- The beginning of a submission passes the monitors by. -/
theorem begin (w : TaskCourse) : w.Aside .begin (w.step .begin) := by
  rw [step]
  cases hb : w.desk.beginSubmission with
  | error e => exact refl w _
  | ok d =>
    obtain ⟨free, rfl⟩ := Desk.eq_of_beginSubmission hb
    exact of_state (.begin free)

/-- The end of a submission passes the monitors by. -/
theorem settle (w : TaskCourse) (o : TaskState) : w.Aside (.settle o) (w.step (.settle o)) := by
  rw [step]
  rcases Desk.attempt_finishSubmission w.desk o with h | h <;> rw [h]
  · exact refl w _
  · exact of_state (.settle o)

/-- What a server does passes the monitors by, but for the channels. -/
theorem serve (w : TaskCourse) (m : ServerMove) : w.Aside (.serve m) (w.serve m) := by
  refine ⟨rfl, rfl, rfl, rfl, .same _, rfl, rfl, rfl, Nat.le_refl _, fun _ ↦ rfl, fun _ ↦ .inl,
    fun _ ↦ id, m.taskIds_play _, fun n ↦ ?_, fun n ↦ ?_⟩
  · have hline := m.unheard_play w.desk.connector n
    simp only [sentOn, TaskCourse.serve, ofChannel_append, List.append_assoc, hline]
    rfl
  · exact ⟨ofChannel (m.arrival? w.desk.connector).toList n,
      by simp only [arrivedOn, TaskCourse.serve, ofChannel_append], m.waiting_play _ n⟩

/-- A cancellation tells the task in the slot to end, and waits for it from now on. -/
theorem signal (hc : w.call? i = some .cancel) (ticket : Nat) :
    w.Aside (.turn i) (w.proceed i .cancel w.desk.signalCancel.2 (some (.awaitEnd ticket))
      none) := by
  have hslot := w.desk.slot_signalCancel
  have marked := fun t ↦ @Desk.isCancelled_signalCancel w.desk t
  have marks := fun t ↦ @Desk.active_of_isCancelled_signalCancel w.desk t
  have hdesk := w.desk.signalCancel_eq
  -- only the marks on the guards are changed
  generalize w.desk.signalCancel.2 = d at hslot marked marks hdesk
  generalize d.guards = guards at hdesk
  subst hdesk
  refine ⟨?_, by simp [proceed, TaskCall.deeds], rfl, congrArg Slot.unfinished hslot, .same _, rfl,
    rfl, rfl, Nat.le_refl _, fun _ ↦ rfl, fun t ht ↦ ?_, marked, rfl, fun _ ↦ rfl, fun n ↦ ?_⟩
  · exact follower?_of_update_none (call?_proceed hc _ _ _) (follower?_of_call? hc) rfl
  · rcases marks t ht with hmark | ⟨b, hb, hticket⟩
    · exact .inl hmark
    · exact .inr ⟨i, b, rfl, hc, hb, hticket⟩
  · exact ⟨[], by simp [arrivedOn, proceed], by simp [proceed]⟩

/-- A call that follows no task does something that leaves the desk as it is. -/
theorem of_call {c : TaskCall} {c' : Option TaskCall} (hc : w.call? i = some c)
    (hm : c.monitor? = none) (hm' : c'.bind TaskCall.monitor? = none) (text : Option String) :
    w.Aside h (w.proceed i c w.desk c' text) := by
  have hdeeds : c.deeds w.desk w.desk text = [] := by
    cases c with
    | follow m => cases hm
    | _ => rfl
  rw [proceed, hdeeds, List.append_nil]
  refine of_calls ?_
  exact follower?_of_update_none (call?_proceed hc w.desk c' text)
    (by rw [follower?_of_call? hc, hm]) hm'

end Aside

/-! ### A step is one of four -/

/-- Monitoring a task is a step: the task gets the slot, or is refused. -/
theorem step_monitor (w : TaskCourse) (taskId : String) :
    w.Step (.monitor taskId) (w.step (.monitor taskId)) := by
  rw [step, TaskCall.monitor]
  cases hr : Monitor.register w.desk taskId with
  | error e =>
    refine .aside (.of_calls ?_)
    exact follower?_of_update_none (call?_launch w w.desk (.refused e))
      (follower?_of_length_le (Nat.le_refl _)) rfl
  | ok r =>
    obtain ⟨m, d⟩ := r
    obtain ⟨free, hm, hd⟩ := Monitor.eq_of_register hr
    refine .enroll taskId free hd ?_ rfl rfl rfl
    rw [follower?_of_update (call?_launch w d (.follow m)), hm]
    rfl

/-- Calling for a cancellation is a step: it marks the task in the slot, if there is one. -/
theorem step_cancel (w : TaskCourse) : w.Step .cancel (w.step .cancel) := by
  refine .aside (.of_calls ?_)
  exact follower?_of_update_none (call?_launch w w.desk .cancel)
    (follower?_of_length_le (Nat.le_refl _)) rfl

/-- A turn of a monitor is a step: it moves, exits or waits. -/
theorem step_takeTurn_follow {m : Monitor} (hc : w.call? i = some (.follow m)) :
    w.Step (.turn i) (w.takeTurn i (.follow m)) := by
  have before : w.follower? i = some m := follower?_of_call? hc
  unfold takeTurn
  rw [TaskCall.turn]
  cases ht : m.turn w.desk with
  | waits => exact .aside (.refl w _)
  | moves d m' =>
    have move := Monitor.move_of_turn ht
    exact .move before move (follower?_of_update (call?_proceed hc _ _ _)) rfl rfl rfl
  | ends d o =>
    have exit := Monitor.exit_of_turn ht
    refine .leave rfl before exit.leaves (follower?_of_update (call?_proceed hc _ _ _)) ?_ rfl rfl
    simp only [Turn.map, id, proceed, TaskCall.deeds, TaskCall.intake?, exit.intake?_eq]
    rw [exit.leaves.published, List.drop_left]

/-- A monitor goes on. -/
theorem step_of_moves {m m' : Monitor} {d : Desk} (hi : w.follower? i = some m)
    (ht : m.turn w.desk = .moves d m') :
    w.step (.turn i) =
      w.proceed i (.follow m) d (some (.follow m')) (m.intake? w.desk) := by
  rw [step, onCall, call?_of_follower? hi]
  show w.takeTurn i (.follow m) = _
  rw [takeTurn, TaskCall.turn, ht]
  rfl

/-- A monitor ends. -/
theorem step_of_ends {m : Monitor} {d : Desk} {o : Monitor.Outcome} (hi : w.follower? i = some m)
    (ht : m.turn w.desk = .ends d o) :
    w.step (.turn i) = w.proceed i (.follow m) d none (m.intake? w.desk) := by
  rw [step, onCall, call?_of_follower? hi]
  show w.takeTurn i (.follow m) = _
  rw [takeTurn, TaskCall.turn, ht]
  rfl

/-- **Whatever happens is one of the four.** -/
theorem step_cases (w : TaskCourse) (h : TaskHappening) : w.Step h (w.step h) := by
  cases h with
  | begin => exact .aside (.begin w)
  | settle o => exact .aside (.settle w o)
  | monitor taskId => exact w.step_monitor taskId
  | cancel => exact w.step_cancel
  | turn i =>
    refine onCall_induction (.aside (.refl w _)) fun c hc ↦ ?_
    cases c with
    | follow m => exact step_takeTurn_follow hc
    | refused e => exact .aside (.of_call hc rfl rfl _)
    | cancel =>
      unfold takeTurn
      rw [TaskCall.turn]
      -- a cancellation that finds no task returns at once, and otherwise it has marked the task
      rcases hd : w.desk.signalCancel with ⟨_ | ticket, d⟩
      · obtain ⟨-, rfl⟩ := Desk.eq_of_signalCancel_none hd
        exact .aside (.of_call hc rfl rfl _)
      · obtain rfl : w.desk.signalCancel.2 = d := by rw [hd]
        exact .aside (.signal hc ticket)
    | awaitEnd ticket =>
      unfold takeTurn
      rw [TaskCall.turn]
      split_ifs
      · exact .aside (.of_call hc rfl rfl _)
      · exact .aside (.refl w _)
  | drop i =>
    refine onCall_induction (.aside (.refl w _)) fun c hc ↦ ?_
    cases c with
    | follow m =>
      -- whoever gives up the call that follows a task ends the task
      have leaves := m.leaves_abandon w.desk
      refine .leave rfl (follower?_of_call? hc) leaves
        (follower?_of_update (call?_proceed hc _ _ _))
        ?_ rfl rfl
      simp only [proceed, TaskCall.deeds, TaskCall.abandon]
      rw [leaves.published, List.drop_left]
    | _ => exact .aside (.of_call hc rfl rfl _)
  | serve m => exact .aside (.serve w m)
  | write p => exact .aside (.of_desk rfl (.same _) (Nat.le_refl _) fun hquiet ↦ by cases hquiet)
  | wait ms => exact .aside (.of_desk rfl (.same _) (Nat.le_add_right _ _) fun _ ↦ rfl)

/-- **What every step keeps, a run keeps.** Only some things may happen in the run, and what is
known of all runs may be used for the step. -/
theorem run_induction_of {P : TaskCourse → Prop} {R : TaskHappening → Prop} {w : TaskCourse}
    (hstart : P w)
    (hstep : ∀ {hs h w'}, R h → P (w.run hs) → Step (w.run hs) h w' → P w')
    (hs : List TaskHappening) (hR : ∀ h ∈ hs, R h) : P (w.run hs) := by
  induction hs using List.reverseRecOn with
  | nil => exact hstart
  | append_singleton hs h ih =>
    rw [run_concat]
    have hlast : R h := hR h (List.mem_append_right _ (List.mem_singleton_self h))
    exact hstep hlast (ih fun h' hh' ↦ hR h' (List.mem_append_left _ hh')) (step_cases _ h)

/-- What holds at the start and is kept by each step holds after every run. -/
theorem run_induction {P : TaskCourse → Prop} {w : TaskCourse} (hstart : P w)
    (hstep : ∀ {hs h w'}, P (w.run hs) → Step (w.run hs) h w' → P w') (hs : List TaskHappening) :
    P (w.run hs) :=
  run_induction_of (R := fun _ ↦ True) hstart (fun _ ↦ hstep) hs fun _ _ ↦ trivial

/-- **What every step from then on keeps holds from then on.** -/
theorem later_induction {P : TaskCourse → Prop} {w : TaskCourse} {before : List TaskHappening}
    {h : TaskHappening} (hstart : P ((w.run before).step h))
    (hstep : ∀ {hs w' h'}, P (w.run hs) → Step (w.run hs) h' w' → P w') (hs : List TaskHappening) :
    P (w.run (before ++ h :: hs)) := by
  induction hs using List.reverseRecOn with
  | nil =>
    rw [run_concat]
    exact hstart
  | append_singleton hs h' ih =>
    rw [← List.cons_append, ← List.append_assoc, run_concat]
    exact hstep ih (step_cases _ h')

end TaskCourse

end GraphSession
