import Mathlib.Data.List.Induction
import GraphSession.Proofs.Schedule.Places
import GraphSession.Proofs.Session.Change

/-!
# Courses of events

A course is a session, the syncs and cancellations that were called for on it, and what the syncs
have done so far. Anything can happen next (`Happening`): another call is made, some call takes its
turn, is answered or is given up, servers and users do their part, time passes. **No order is
assumed.** Every order in which calls in flight can take their turns is a list of happenings, so a
statement about `Course.run` for all lists is a statement about all interleavings; a call whose turn
comes while it has to wait does nothing, and so does a happening that speaks of no call.

**The past.** The deeds of the syncs are kept in the order they were done. Nothing in the session
depends on them: they are there to state what a state of the session has to do with how it came
about.

**One step, three ways** (`step_cases`). A happening changes one sync by `SyncStage.Change`, or lets
a sync begin, or passes the syncs by; in the last case it leaves alone all that syncs depend on
(`Session.Aside`), but a cancellation may do its part (`Cancels`): it tells the task in the slot to
end, or it returns, and then no sync counts as under way.
-/

namespace GraphSession

/-- An act, with the number of the call whose act it is. -/
structure Deed where
  caller : Nat
  act : Act

/-- What can happen next. -/
inductive Happening where
  /-- A sync is called for. -/
  | sync
  /-- A cancellation is called for. -/
  | cancel
  /-- It is the turn of a call. -/
  | turn (i : Nat)
  /-- What a call has asked for is answered. -/
  | answer (i : Nat) (say : (r : Request) → Except Failure r.Answer)
  /-- A call is given up. -/
  | drop (i : Nat)
  | serve (m : ServerMove)
  /-- The user changes the graph. -/
  | edit (g : EditorGraph)
  /-- Somebody writes to the project who is no part of the session. -/
  | write (p : Project)
  | wait (ms : Nat) (clock : Moment)

namespace Happening

/-- Whether the graph is edited. -/
def isEdit : Happening → Bool
  | edit _ => true
  | _ => false

/-- Whether somebody other than the syncs writes to the project. -/
def isWrite : Happening → Bool
  | write _ => true
  | _ => false

/-- Whether a call is given up. -/
def isDrop : Happening → Bool
  | drop _ => true
  | _ => false

/-- The call that something happens to. -/
def caller? : Happening → Option Nat
  | turn i | answer i _ | drop i => some i
  | _ => none

end Happening

/-- The place of a sync. -/
def SessionCall.stage? : SessionCall → Option SyncStage
  | sync stage => some stage
  | _ => none

/-- The task whose end a cancellation waits for. -/
def SessionCall.awaited? : SessionCall → Option Nat
  | awaitEnd ticket => some ticket
  | _ => none

/-- Whether a call is a sync or a cancellation. -/
def SessionCall.isPlain : SessionCall → Bool
  | sync _ | cancel | awaitEnd _ => true
  | task _ | access _ => false

/-- A session, the calls on it, and what the syncs have done so far. -/
structure Course where
  session : Session
  /-- In the order they were made; none for a call that has returned. -/
  calls : List (Option SessionCall)
  past : List Deed

namespace Course

/-- A session on which nothing was called for. -/
def start (s : Session) : Course := ⟨s, [], []⟩

/-- A session for a project, on which nothing was called for. -/
def ofProject (settings : Settings) (p : Project) (clock : Moment) : Course :=
  start (.start settings p clock)

/-- A call that has not returned. -/
def call? (w : Course) (i : Nat) : Option SessionCall := w.calls[i]?.join

/-- The place of a sync that has not returned. -/
def stage? (w : Course) (i : Nat) : Option SyncStage := (w.call? i).bind SessionCall.stage?

/-- The task whose end a cancellation in flight waits for. -/
def awaited? (w : Course) (i : Nat) : Option Nat := (w.call? i).bind SessionCall.awaited?

/-- A call returns on its turn. -/
def Returns (w : Course) (i : Nat) (r : SessionResult) : Prop :=
  ∃ c s, w.call? i = some c ∧ c.turn w.session = .ends s r

/-- What happens is that a cancellation returns. -/
def CancelReturns (w : Course) (h : Happening) : Prop :=
  ∃ i, h = .turn i ∧ w.Returns i .cancelled

/-- One more call is made, under the next number. -/
def launch (w : Course) (c : SessionCall) : Course := { w with calls := w.calls ++ [some c] }

/-- A call has got to another place, or has returned, and did something on the way. -/
def proceed (w : Course) (i : Nat) (s : Session) (c : Option SessionCall) (a : Option Act) :
    Course :=
  ⟨s, w.calls.set i c, w.past ++ a.toList.map (Deed.mk i)⟩

/-- The act of a call on its turn. -/
def actOf (s : Session) : SessionCall → Option Act
  | .sync stage => stage.act? s
  | _ => none

/-- A call takes its turn, if it does not have to wait. -/
def takeTurn (w : Course) (i : Nat) (c : SessionCall) : Course :=
  match c.turn w.session with
  | .waits => w
  | .moves s c' => w.proceed i s (some c') (actOf w.session c)
  | .ends s _ => w.proceed i s none (actOf w.session c)

/-- A call gets an answer to the question it has asked, if it has asked one. -/
def resume (w : Course) (i : Nat) (c : SessionCall)
    (say : (r : Request) → Except Failure r.Answer) : Course :=
  match c.question? with
  | none => w
  | some q =>
    w.proceed i w.session (some (q.resume (say q.request))) (Act.ofAnswer q.request (say q.request))

/-- Does something to a call that has not returned. -/
def onCall (w : Course) (i : Nat) (f : SessionCall → Course) : Course :=
  match w.call? i with
  | none => w
  | some c => f c

/-- What becomes of a course when this happens. -/
def step (w : Course) : Happening → Course
  | .sync => w.launch (.sync .called)
  | .cancel => w.launch .cancel
  | .turn i => w.onCall i (w.takeTurn i)
  | .answer i say => w.onCall i fun c ↦ w.resume i c say
  | .drop i => w.onCall i fun c ↦ w.proceed i (c.abandon w.session) none none
  | .serve m => { w with session := w.session.onDesk fun d ↦ d.onConnector m.play }
  | .edit g => { w with session := { w.session with graph := g } }
  | .write p => { w with session := w.session.onProject fun _ ↦ p }
  | .wait ms clock =>
    { w with session := { w.session.onDesk fun d ↦ d.advance ms with clock := clock } }

/-- What becomes of a course when all this happens, in this order. -/
def run (w : Course) (hs : List Happening) : Course := hs.foldl step w

@[simp] theorem run_nil (w : Course) : w.run [] = w := rfl

/-- What happens can be cut in two anywhere. -/
theorem run_append (w : Course) (hs hs' : List Happening) :
    w.run (hs ++ hs') = (w.run hs).run hs' := List.foldl_append

/-- What happens last is a step after all the rest. -/
@[simp] theorem run_concat (w : Course) (hs : List Happening) (h : Happening) :
    w.run (hs ++ [h]) = (w.run hs).step h := by
  simp [run]

end Course

/-- What passes the syncs by leaves alone all that they depend on. Only a user edits the graph, and
only somebody else writes to the project. -/
structure Session.Aside (h : Happening) (s s' : Session) : Prop where
  lock : s'.lock = s.lock
  generation : s'.generation = s.generation
  slot : s'.desk.slot = s.desk.slot
  tickets : s'.desk.tickets = s.desk.tickets
  taskIds : s'.desk.connector.taskIds = s.desk.connector.taskIds
  message : s'.status.message = s.status.message
  graph : h.isEdit = false → s'.graph = s.graph
  project : h.isWrite = false → s'.project = s.project
  lastSynced : s'.status.lastSynced = s.status.lastSynced

namespace Session.Aside

variable {h : Happening}

theorem refl (s : Session) : Aside h s s :=
  ⟨rfl, rfl, rfl, rfl, rfl, rfl, fun _ ↦ rfl, fun _ ↦ rfl, rfl⟩

/-- The end of a cancellation lowers the flag and no more. -/
theorem endCancel (s : Session) :
    Aside h s (s.onStatus fun t ↦ { t with syncing := false }) :=
  ⟨rfl, rfl, rfl, rfl, rfl, rfl, fun _ ↦ rfl, fun _ ↦ rfl, rfl⟩

/-- Telling a task to end is nothing that a sync depends on, until the task ends. -/
theorem signalCancel (s : Session) : Aside h s { s with desk := s.desk.signalCancel.2 } := by
  refine ⟨rfl, rfl, s.desk.slot_signalCancel, ?_, ?_, rfl, fun _ ↦ rfl, fun _ ↦ ?_, rfl⟩
  · rw [s.desk.signalCancel_eq]
  · rw [s.desk.signalCancel_eq]
  · rw [Session.project, s.desk.signalCancel_eq]
    rfl

theorem serve (m : ServerMove) (s : Session) :
    Aside h s (s.onDesk fun d ↦ d.onConnector m.play) :=
  ⟨rfl, rfl, rfl, rfl, m.taskIds_play _, rfl, fun _ ↦ rfl, fun _ ↦ rfl, rfl⟩

end Session.Aside

namespace Course

/-- What becomes of the cancellations while the syncs are passed by. -/
inductive Cancels (w : Course) : Happening → Course → Prop
  /-- Nothing, or another one is called for. -/
  | none {h : Happening} {w' : Course} (silent : ¬ w.CancelReturns h)
      (guards : w'.session.desk.guards = w.session.desk.guards)
      (syncing : w'.session.status.syncing = w.session.status.syncing)
      (awaited : w'.awaited? = w.awaited?) : Cancels w h w'
  /-- One tells the task in the slot to end, and waits for it from now on. -/
  | tell {w' : Course} (i : Nat) (a : ActiveTask) (silent : ¬ w.CancelReturns (.turn i))
      (active : w.session.desk.active = some a)
      (session : w'.session = { w.session with desk := w.session.desk.signalCancel.2 })
      (awaited : w'.awaited? = Function.update w.awaited? i (some a.ticket)) :
      Cancels w (.turn i) w'
  /-- One returns. If it had to wait for a task, then this task has ended. -/
  | finish {w' : Course} (i : Nat) (returns : w.Returns i .cancelled)
      (ended : ∀ t, w.awaited? i = some t → w.session.desk.isClosed t = true)
      (session : w'.session = w.session.onStatus fun t ↦ { t with syncing := false })
      (awaited : w'.awaited? = Function.update w.awaited? i none) : Cancels w (.turn i) w'
  /-- One is given up. -/
  | drop {w' : Course} (i : Nat) (session : w'.session = w.session)
      (awaited : w'.awaited? = Function.update w.awaited? i none) : Cancels w (.drop i) w'

/-- The three ways in which something happens. -/
inductive Step (w : Course) : Happening → Course → Prop
  /-- A sync is called for. -/
  | enter {w' : Course} (session : w'.session = w.session)
      (stages : w'.stage? = Function.update w.stage? w.calls.length (some .called))
      (calls : w'.calls.length = w.calls.length + 1) (past : w'.past = w.past)
      (awaited : w'.awaited? = w.awaited?) : Step w .sync w'
  /-- Something happens to a sync. -/
  | change {h : Happening} {w' : Course} {i : Nat} {stage : SyncStage} {next : Option SyncStage}
      {a : Option Act} (caller : h.caller? = some i) (before : w.stage? i = some stage)
      (change : stage.Change w.session w'.session next a)
      (stages : w'.stage? = Function.update w.stage? i next)
      (calls : w'.calls.length = w.calls.length)
      (past : w'.past = w.past ++ a.toList.map (Deed.mk i)) (awaited : w'.awaited? = w.awaited?)
      (given : next = none → a = none → h.isDrop = true) : Step w h w'
  /-- The syncs are passed by. -/
  | aside {h : Happening} {w' : Course} (session : w.session.Aside h w'.session)
      (stages : w'.stage? = w.stage?) (calls : w.calls.length ≤ w'.calls.length)
      (past : w'.past = w.past) (cancels : w.Cancels h w') : Step w h w'

variable {w : Course} {i : Nat}

/-! ### Places of the syncs -/

/-- Where a sync is after one sync has got to another place, or has returned. -/
theorem stage?_cases {w' : Course} {j : Nat} {b : SyncStage} {next : Option SyncStage}
    (stages : w'.stage? = Function.update w.stage? i next) (hj : w'.stage? j = some b) :
    j = i ∧ next = some b ∨ j ≠ i ∧ w.stage? j = some b :=
  update_eq_some_iff.1 (stages ▸ hj)

/-- Where a sync is after another was called for. -/
theorem stage?_of_enter {w' : Course} {j : Nat} {b : SyncStage}
    (stages : w'.stage? = Function.update w.stage? i (some .called)) (hj : w'.stage? j = some b) :
    b = .called ∨ w.stage? j = some b := by
  rcases stage?_cases stages hj with ⟨-, hcalled⟩ | ⟨-, hj⟩
  · exact .inl (Option.some.inj hcalled).symm
  · exact .inr hj

/-- A call that is made is in flight under the next number. -/
theorem call?_launch (w : Course) (c : SessionCall) :
    (w.launch c).call? = Function.update w.call? w.calls.length (some c) :=
  callAt?_concat w.calls (some c)

/-- A call that goes on is the only one to. -/
theorem call?_proceed {c : SessionCall} (hc : w.call? i = some c) (s : Session)
    (c' : Option SessionCall) (a : Option Act) :
    (w.proceed i s c' a).call? = Function.update w.call? i c' :=
  callAt?_set hc c'

/-- What happens to a call need only be looked at while the call has not returned. -/
theorem onCall_induction {P : Course → Prop} {f : SessionCall → Course} (hw : P w)
    (hf : ∀ c, w.call? i = some c → P (f c)) : P (w.onCall i f) := by
  unfold onCall
  split
  · exact hw
  · rename_i c hc
    exact hf c hc

theorem stage?_eq_none_of_length_le (hi : w.calls.length ≤ i) : w.stage? i = none := by
  simp [stage?, call?, List.getElem?_eq_none hi]

/-- The place of a sync is the place of the call. -/
theorem stage?_of_call? {c : SessionCall} (hc : w.call? i = some c) : w.stage? i = c.stage? := by
  rw [stage?, hc]
  rfl

/-- One call changes, so one place may change. -/
theorem stage?_of_update {w' : Course} {c : Option SessionCall}
    (h : w'.call? = Function.update w.call? i c) :
    w'.stage? = Function.update w.stage? i (c.bind SessionCall.stage?) :=
  bind_of_update h SessionCall.stage?

/-- Replacing a call that is no sync by another that is none. -/
theorem stage?_of_update_none {w' : Course} {c : Option SessionCall}
    (h : w'.call? = Function.update w.call? i c) (hi : w.stage? i = none)
    (hc : c.bind SessionCall.stage? = none) : w'.stage? = w.stage? := by
  rw [stage?_of_update h, hc, ← hi, Function.update_eq_self]

/-- One call changes, so one wait for a task may begin or end. -/
theorem awaited?_of_update {w' : Course} {c : Option SessionCall}
    (h : w'.call? = Function.update w.call? i c) :
    w'.awaited? = Function.update w.awaited? i (c.bind SessionCall.awaited?) :=
  bind_of_update h SessionCall.awaited?

/-- Replacing a call that waits for no task by another that waits for none. -/
theorem awaited?_of_update_none {w' : Course} {c : Option SessionCall}
    (h : w'.call? = Function.update w.call? i c) (hi : w.awaited? i = none)
    (hc : c.bind SessionCall.awaited? = none) : w'.awaited? = w.awaited? := by
  rw [awaited?_of_update h, hc, ← hi, Function.update_eq_self]

theorem awaited?_of_call? {c : SessionCall} (hc : w.call? i = some c) :
    w.awaited? i = c.awaited? := by
  rw [awaited?, hc]
  rfl

theorem awaited?_eq_none_of_length_le (hi : w.calls.length ≤ i) : w.awaited? i = none := by
  simp [awaited?, call?, List.getElem?_eq_none hi]

/-- A sync in flight is the call of that number. -/
theorem call?_of_stage? {stage : SyncStage} (hi : w.stage? i = some stage) :
    w.call? i = some (.sync stage) := by
  obtain ⟨c, hc, hstage⟩ := Option.bind_eq_some_iff.1 hi
  cases c with
  | sync => rw [hc, ← Option.some.inj hstage]
  | _ => cases hstage

/-- A sync that returns does so on its turn. -/
theorem Returns.turn {r : Except Failure Unit} (h : w.Returns i (.synced r)) :
    ∃ stage s, w.stage? i = some stage ∧ stage.turn w.session = .ends s r := by
  obtain ⟨c, s, hc, hends⟩ := h
  cases c with
  | sync stage =>
    rw [SessionCall.turn] at hends
    cases hstage : stage.turn w.session <;> rw [hstage] at hends <;> cases hends
    exact ⟨stage, _, stage?_of_call? hc, hstage⟩
  | cancel =>
    simp only [SessionCall.turn, SessionCall.turnCancel] at hends
    split at hends <;> cases hends
  | awaitEnd ticket =>
    simp only [SessionCall.turn] at hends
    split_ifs at hends
    cases hends
  | task c =>
    rw [SessionCall.turn] at hends
    cases ht : c.turn w.session.desk <;> rw [ht] at hends <;> cases hends
  | access a =>
    rw [SessionCall.turn] at hends
    cases ha : a.turn w.session <;> rw [ha] at hends <;> cases hends

/-- What happens to a sync is not that a cancellation returns. -/
theorem not_cancelReturns_of_stage? {h : Happening} {stage : SyncStage}
    (hi : w.stage? i = some stage) (hcaller : h.caller? = some i) : ¬ w.CancelReturns h := by
  rintro ⟨j, rfl, c, s, hc, hturn⟩
  obtain rfl := Option.some.inj hcaller
  obtain rfl := Option.some.inj ((call?_of_stage? hi).symm.trans hc)
  rw [SessionCall.turn] at hturn
  cases hstage : stage.turn w.session <;> rw [hstage] at hturn <;> cases hturn

/-! ### The past -/

theorem mem_append_deed {past : List Deed} {a : Option Act} {d : Deed} :
    d ∈ past ++ a.toList.map (Deed.mk i) ↔ d ∈ past ∨ ∃ act, a = some act ∧ d = ⟨i, act⟩ := by
  cases a <;> simp

theorem pairwise_append_deed {R : Deed → Deed → Prop} {past : List Deed} {a : Option Act} :
    (past ++ a.toList.map (Deed.mk i)).Pairwise R ↔
      past.Pairwise R ∧ ∀ act, a = some act → ∀ d ∈ past, R d ⟨i, act⟩ := by
  cases a <;> simp [List.pairwise_append]

/-! ### What happens to a sync -/

/-- A sync that goes on is the only one to change its place. -/
theorem stage?_proceed {stage : SyncStage} (hi : w.stage? i = some stage) (s : Session)
    (next : Option SyncStage) (a : Option Act) :
    (w.proceed i s (next.map .sync) a).stage? = Function.update w.stage? i next := by
  rw [stage?_of_update (call?_proceed (call?_of_stage? hi) _ _ _)]
  cases next <;> rfl

/-- The turn of a sync that has to wait. -/
theorem step_of_waits {stage : SyncStage} (hi : w.stage? i = some stage)
    (hturn : stage.turn w.session = .waits) : w.step (.turn i) = w := by
  rw [step, onCall, call?_of_stage? hi]
  show w.takeTurn i (.sync stage) = w
  rw [takeTurn, SessionCall.turn, hturn]
  rfl

/-- The turn of a sync that goes on. -/
theorem step_of_moves {stage stage' : SyncStage} {s : Session} (hi : w.stage? i = some stage)
    (hturn : stage.turn w.session = .moves s stage') :
    w.step (.turn i) = w.proceed i s (some (.sync stage')) (stage.act? w.session) := by
  rw [step, onCall, call?_of_stage? hi]
  show w.takeTurn i (.sync stage) = _
  rw [takeTurn, SessionCall.turn, hturn]
  rfl

/-- The turn of a sync that returns. -/
theorem step_of_ends {stage : SyncStage} {s : Session} {r : Except Failure Unit}
    (hi : w.stage? i = some stage) (hturn : stage.turn w.session = .ends s r) :
    w.step (.turn i) = w.proceed i s none (stage.act? w.session) := by
  rw [step, onCall, call?_of_stage? hi]
  show w.takeTurn i (.sync stage) = _
  rw [takeTurn, SessionCall.turn, hturn]
  rfl

/-- A sync gets the answer to what it has asked for, if it has asked for anything. -/
theorem step_of_question {stage : SyncStage} {q : Question SyncStage} (hi : w.stage? i = some stage)
    (hq : stage.question? = some q) (say : (r : Request) → Except Failure r.Answer) :
    w.step (.answer i say) = w.proceed i w.session (some (.sync (q.resume (say q.request))))
      (Act.ofAnswer q.request (say q.request)) := by
  rw [step, onCall, call?_of_stage? hi]
  show w.resume i (.sync stage) say = _
  rw [resume, SessionCall.question?, hq]
  rfl

/-! ### A step is one of three -/

/-- Something happens to a sync. -/
theorem Step.of_change {h : Happening} {stage : SyncStage} {next : Option SyncStage} {s : Session}
    {a : Option Act} (caller : h.caller? = some i) (hc : w.call? i = some (.sync stage))
    (change : stage.Change w.session s next a) (given : next = none → a = none → h.isDrop = true) :
    w.Step h (w.proceed i s (next.map .sync) a) := by
  refine .change caller (stage?_of_call? hc) change (stage?_proceed (stage?_of_call? hc) _ _ _)
    (by simp [proceed]) rfl ?_ given
  refine awaited?_of_update_none (call?_proceed hc _ _ _) (awaited?_of_call? hc) ?_
  cases next <;> rfl

/-- Something happens to a cancellation. -/
theorem Step.of_aside {h : Happening} {c : SessionCall} {c' : Option SessionCall} {s : Session}
    (hc : w.call? i = some c) (hstage : c.stage? = none)
    (hstage' : c'.bind SessionCall.stage? = none)
    (session : w.session.Aside h s) (cancels : w.Cancels h (w.proceed i s c' none)) :
    w.Step h (w.proceed i s c' none) := by
  refine .aside session ?_ (by simp [proceed]) (by simp [proceed]) cancels
  exact stage?_of_update_none (call?_proceed hc _ _ _) (by rw [stage?_of_call? hc, hstage]) hstage'

/-- Nothing at all may happen, if no cancellation returns. -/
theorem Step.of_idle {h : Happening} (silent : ¬ w.CancelReturns h) : w.Step h w :=
  .aside (.refl _) rfl (Nat.le_refl _) rfl (.none silent rfl rfl rfl)

/-- A call that has to wait does not return. -/
theorem not_cancelReturns_of_call? {c : SessionCall} (hc : w.call? i = some c)
    (hturn : ∀ s, c.turn w.session ≠ .ends s .cancelled) : ¬ w.CancelReturns (.turn i) := by
  rintro ⟨j, hj, c', s, hc', hends⟩
  obtain rfl := Happening.turn.inj hj
  obtain rfl := Option.some.inj (hc.symm.trans hc')
  exact hturn s hends

/-- Only a turn lets a cancellation return. -/
theorem not_cancelReturns_of_ne {h : Happening} (hh : ∀ j, h ≠ .turn j) : ¬ w.CancelReturns h := by
  rintro ⟨j, rfl, -⟩
  exact hh j rfl

/-- Only syncs and cancellations are in flight. -/
def Plain (w : Course) : Prop :=
  ∀ i c, w.call? i = some c → c.isPlain = true

theorem plain_start (s : Session) : (start s).Plain := by
  intro i c hc
  simp [start, call?] at hc

/-- A plain call in place of another leaves all calls plain. -/
theorem Plain.update {w' : Course} {c : Option SessionCall} (hw : w.Plain)
    (h : w'.call? = Function.update w.call? i c) (hc : c.all SessionCall.isPlain = true) :
    w'.Plain := by
  intro j c' hj
  rw [h] at hj
  rcases update_eq_some_iff.1 hj with ⟨rfl, rfl⟩ | ⟨-, hj⟩
  · exact hc
  · exact hw j c' hj

/-- A sync stays a sync, and a cancellation a cancellation. -/
theorem isPlain_of_moves {s s' : Session} {c c' : SessionCall} (h : c.turn s = .moves s' c')
    (hc : c.isPlain = true) : c'.isPlain = true := by
  cases c with
  | sync stage =>
    rw [SessionCall.turn] at h
    cases ht : stage.turn s <;> rw [ht] at h <;> cases h
    rfl
  | cancel =>
    simp only [SessionCall.turn, SessionCall.turnCancel] at h
    split at h <;> cases h
    rfl
  | awaitEnd ticket =>
    simp only [SessionCall.turn] at h
    split_ifs at h
    cases h
  | task c => cases hc
  | access a => cases hc

/-- An answer keeps a plain call plain. -/
theorem isPlain_of_question {c : SessionCall} {q : Question SessionCall}
    (h : c.question? = some q) (hc : c.isPlain = true) (a : Except Failure q.request.Answer) :
    (q.resume a).isPlain = true := by
  cases c with
  | sync stage =>
    obtain ⟨q', -, rfl⟩ := Option.map_eq_some_iff.1 h
    rfl
  | access a => cases hc
  | _ => cases h

/-- Only plain calls are ever made here. -/
theorem Plain.step (hw : w.Plain) (h : Happening) : (w.step h).Plain := by
  cases h with
  | sync => exact hw.update (call?_launch w _) rfl
  | cancel => exact hw.update (call?_launch w _) rfl
  | turn i =>
    refine onCall_induction hw fun c hc ↦ ?_
    unfold takeTurn
    split
    · exact hw
    · rename_i s c' ht
      exact hw.update (call?_proceed hc _ _ _) (isPlain_of_moves ht (hw i c hc))
    · exact hw.update (call?_proceed hc _ _ _) rfl
  | answer i say =>
    refine onCall_induction hw fun c hc ↦ ?_
    unfold resume
    split
    · exact hw
    · rename_i q hq
      exact hw.update (call?_proceed hc _ _ _) (isPlain_of_question hq (hw i c hc) _)
  | drop i =>
    refine onCall_induction hw fun c hc ↦ ?_
    exact hw.update (call?_proceed hc _ _ _) rfl
  | _ => exact hw

/-- A turn of a sync is a step: it goes on as a sync can, or it waits. -/
theorem step_turn_sync {stage : SyncStage} (hi : w.stage? i = some stage) :
    w.Step (.turn i) (w.step (.turn i)) := by
  have hc := call?_of_stage? hi
  cases ht : stage.turn w.session with
  | waits =>
    rw [step_of_waits hi ht]
    exact .of_idle (not_cancelReturns_of_stage? hi rfl)
  | moves s stage' =>
    rw [step_of_moves hi ht]
    exact .of_change rfl hc (SyncStage.change_of_moves ht) nofun
  | ends s r =>
    rw [step_of_ends hi ht]
    refine .of_change rfl hc (SyncStage.change_of_ends ht) fun _ hact ↦ ?_
    -- a sync that returns has told of it
    have hresult := SyncStage.result?_of_ends ht
    rw [hact] at hresult
    cases hresult

/-- The first turn of a cancellation is a step beside the syncs. -/
theorem step_takeTurn_cancel (hc : w.call? i = some .cancel) :
    w.Step (.turn i) (w.takeTurn i .cancel) := by
  rcases hd : w.session.desk.signalCancel with ⟨_ | ticket, d⟩
  · have hturn : SessionCall.cancel.turn w.session = SessionCall.endCancel w.session := by
      rw [SessionCall.turn, SessionCall.turnCancel, hd]
    have hnone : w.awaited? i = none := awaited?_of_call? hc
    rw [takeTurn, hturn]
    refine .of_aside hc rfl rfl (.endCancel _) (.finish i ⟨_, _, hc, hturn⟩ ?_ rfl ?_)
    · simp [hnone]
    · exact awaited?_of_update (call?_proceed hc _ _ _)
  · have hturn : SessionCall.cancel.turn w.session =
        .moves { w.session with desk := d } (.awaitEnd ticket) := by
      rw [SessionCall.turn, SessionCall.turnCancel, hd]
    have hsession := Session.Aside.signalCancel (h := .turn i) w.session
    obtain ⟨a, hactive, rfl⟩ := Desk.active_of_signalCancel hd
    rw [hd] at hsession
    rw [takeTurn, hturn]
    refine .of_aside hc rfl rfl hsession (.tell i a ?_ hactive (by rw [hd]; rfl) ?_)
    · refine not_cancelReturns_of_call? hc fun s hends ↦ ?_
      rw [hturn] at hends
      cases hends
    · exact awaited?_of_update (call?_proceed hc _ _ _)

/-- A later turn of a cancellation is a step beside the syncs. -/
theorem step_takeTurn_awaitEnd {ticket : Nat} (hc : w.call? i = some (.awaitEnd ticket)) :
    w.Step (.turn i) (w.takeTurn i (.awaitEnd ticket)) := by
  by_cases hclosed : w.session.desk.isClosed ticket = true
  · have hturn : (SessionCall.awaitEnd ticket).turn w.session =
        SessionCall.endCancel w.session := by
      rw [SessionCall.turn, if_pos hclosed]
    rw [takeTurn, hturn]
    refine .of_aside hc rfl rfl (.endCancel _) (.finish i ⟨_, _, hc, hturn⟩ (fun t ht ↦ ?_) rfl ?_)
    · rw [awaited?_of_call? hc] at ht
      exact Option.some.inj ht ▸ hclosed
    · exact awaited?_of_update (call?_proceed hc _ _ _)
  · have hturn : (SessionCall.awaitEnd ticket).turn w.session = .waits := by
      rw [SessionCall.turn, if_neg hclosed]
    rw [takeTurn, hturn]
    refine .of_idle (not_cancelReturns_of_call? hc fun s hends ↦ ?_)
    rw [hturn] at hends
    cases hends

/-- **Whatever happens is one of the three.** -/
theorem step_cases (hw : w.Plain) (h : Happening) : w.Step h (w.step h) := by
  have plain : ∀ i c, w.call? i = some c →
      (∃ stage, c = .sync stage) ∨ c = .cancel ∨ ∃ ticket, c = .awaitEnd ticket := by
    intro i c hc
    have := hw i c hc
    cases c <;> simp_all [SessionCall.isPlain]
  cases h with
  | sync =>
    refine .enter rfl ?_ (by simp [step, launch]) rfl ?_
    · exact stage?_of_update (call?_launch w _)
    · exact awaited?_of_update_none (call?_launch w _)
        (awaited?_eq_none_of_length_le (Nat.le_refl _)) rfl
  | cancel =>
    refine .aside (.refl _) ?_ (by simp [step, launch]) rfl
      (.none (not_cancelReturns_of_ne nofun) rfl rfl ?_)
    · exact stage?_of_update_none (call?_launch w _) (stage?_eq_none_of_length_le (Nat.le_refl _))
        rfl
    · exact awaited?_of_update_none (call?_launch w _)
        (awaited?_eq_none_of_length_le (Nat.le_refl _)) rfl
  | turn i =>
    cases hc : w.call? i with
    | none =>
      rw [step, onCall, hc]
      refine .of_idle ?_
      rintro ⟨j, hj, c, s, hc', -⟩
      obtain rfl := Happening.turn.inj hj
      rw [hc] at hc'
      cases hc'
    | some c =>
      rcases plain i c hc with ⟨stage, rfl⟩ | rfl | ⟨ticket, rfl⟩
      · exact step_turn_sync (stage?_of_call? hc)
      · rw [step, onCall, hc]
        exact step_takeTurn_cancel hc
      · rw [step, onCall, hc]
        exact step_takeTurn_awaitEnd hc
  | answer i say =>
    have silent : ¬ w.CancelReturns (.answer i say) := not_cancelReturns_of_ne nofun
    refine onCall_induction (.of_idle silent) fun c hc ↦ ?_
    unfold resume
    split
    · exact .of_idle silent
    · rename_i q hq
      -- only a sync asks for anything
      rcases plain i c hc with ⟨stage, rfl⟩ | rfl | ⟨ticket, rfl⟩
      · obtain ⟨q', hq', rfl⟩ := Option.map_eq_some_iff.1 hq
        exact .of_change rfl hc (SyncStage.change_of_resume hq' _) nofun
      · cases hq
      · cases hq
  | drop i =>
    refine onCall_induction (.of_idle (not_cancelReturns_of_ne nofun)) fun c hc ↦ ?_
    -- a cancellation that is given up leaves nothing behind
    have hdrop : w.Cancels (.drop i) (w.proceed i w.session none none) :=
      .drop i rfl (awaited?_of_update (call?_proceed hc _ _ _))
    rcases plain i c hc with ⟨stage, rfl⟩ | rfl | ⟨ticket, rfl⟩
    · exact .of_change rfl hc (.abandon stage) fun _ _ ↦ rfl
    · exact .of_aside hc rfl rfl (.refl _) hdrop
    · exact .of_aside hc rfl rfl (.refl _) hdrop
  | serve m =>
    exact .aside (.serve m _) rfl (Nat.le_refl _) rfl
      (.none (not_cancelReturns_of_ne nofun) rfl rfl rfl)
  | edit g =>
    exact .aside ⟨rfl, rfl, rfl, rfl, rfl, rfl, nofun, fun _ ↦ rfl, rfl⟩ rfl (Nat.le_refl _) rfl
      (.none (not_cancelReturns_of_ne nofun) rfl rfl rfl)
  | write p =>
    exact .aside ⟨rfl, rfl, rfl, rfl, rfl, rfl, fun _ ↦ rfl, nofun, rfl⟩ rfl (Nat.le_refl _) rfl
      (.none (not_cancelReturns_of_ne nofun) rfl rfl rfl)
  | wait ms clock =>
    exact .aside ⟨rfl, rfl, rfl, rfl, rfl, rfl, fun _ ↦ rfl, fun _ ↦ rfl, rfl⟩ rfl
      (Nat.le_refl _) rfl (.none (not_cancelReturns_of_ne nofun) rfl rfl rfl)

/-- A deed is done by a change of the sync whose deed it is. -/
theorem Step.of_deed {h : Happening} {w' : Course} {act : Act} (hstep : w.Step h w')
    (hdeed : w'.past = w.past ++ [⟨i, act⟩]) :
    ∃ stage next, w.stage? i = some stage ∧ h.caller? = some i ∧
      stage.Change w.session w'.session next (some act) := by
  cases hstep with
  | enter session stages calls past => simp [past] at hdeed
  | @change _ _ j stage next a caller before change stages calls past =>
    rw [past, List.append_cancel_left_eq] at hdeed
    cases a with
    | none => simp at hdeed
    | some a =>
      obtain ⟨rfl, rfl⟩ := Deed.mk.inj (List.cons.inj hdeed).1
      exact ⟨stage, next, before, caller, change⟩
  | aside session stages calls past => simp [past] at hdeed

/-- Whatever happens to a sync in flight changes it by the rules, or nothing at all. -/
theorem step_of_stage? {h : Happening} {stage : SyncStage} (hi : w.stage? i = some stage)
    (hcaller : h.caller? = some i) :
    w.step h = w ∨ ∃ next a, stage.Change w.session (w.step h).session next a := by
  have hc := call?_of_stage? hi
  cases h with
  | turn j =>
    obtain rfl := Option.some.inj hcaller
    cases ht : stage.turn w.session with
    | waits => exact .inl (step_of_waits hi ht)
    | moves s stage' =>
      rw [step_of_moves hi ht]
      exact .inr ⟨_, _, SyncStage.change_of_moves ht⟩
    | ends s r =>
      rw [step_of_ends hi ht]
      exact .inr ⟨_, _, SyncStage.change_of_ends ht⟩
  | answer j say =>
    obtain rfl := Option.some.inj hcaller
    cases hq : stage.question? with
    -- none | a sync that has asked nothing takes no notice of an answer
    | none =>
      rw [step, onCall, hc]
      left
      show w.resume j _ say = w
      rw [resume, SessionCall.question?, hq]
      rfl
    | some q =>
      rw [step_of_question hi hq]
      exact .inr ⟨_, _, SyncStage.change_of_resume hq (say q.request)⟩
  | drop j =>
    obtain rfl := Option.some.inj hcaller
    rw [step, onCall, hc]
    exact .inr ⟨_, _, .abandon stage⟩
  | _ => cases hcaller

theorem plain_run (s : Session) (hs : List Happening) : ((start s).run hs).Plain := by
  induction hs using List.reverseRecOn with
  | nil => exact plain_start s
  | append_singleton hs h ih =>
    rw [run_concat]
    exact ih.step h

/-- **In every course, whatever happens is one of the three.** -/
theorem step_run (settings : Settings) (p : Project) (clock : Moment) (hs : List Happening)
    (h : Happening) : Step ((ofProject settings p clock).run hs) h
      (((ofProject settings p clock).run hs).step h) :=
  step_cases (plain_run _ hs) h

/-- **What every step keeps, a run keeps.** Only some things may happen in the run, and what is
known of all runs may be used for the step. -/
theorem run_induction_of {P : Course → Prop} {R : Happening → Prop} {s : Session}
    (hstart : P (start s))
    (hstep : ∀ {hs h w'}, R h → P ((start s).run hs) → Step ((start s).run hs) h w' → P w')
    (hs : List Happening) (hR : ∀ h ∈ hs, R h) : P ((start s).run hs) := by
  induction hs using List.reverseRecOn with
  | nil => exact hstart
  | append_singleton hs h ih =>
    rw [run_concat]
    have hlast : R h := hR h (List.mem_append_right _ (List.mem_singleton_self h))
    exact hstep hlast (ih fun h' hh' ↦ hR h' (List.mem_append_left _ hh'))
      (step_cases (plain_run s hs) h)

/-- What holds at the start and is kept by each step holds after every run. -/
theorem run_induction {P : Course → Prop} {s : Session} (hstart : P (start s))
    (hstep : ∀ {hs h w'}, P ((start s).run hs) → Step ((start s).run hs) h w' → P w')
    (hs : List Happening) : P ((start s).run hs) :=
  run_induction_of (R := fun _ ↦ True) hstart (fun _ ↦ hstep) hs fun _ _ ↦ trivial

end Course

end GraphSession
