import GraphSession.Proofs.Task.Intake
import GraphSession.Session.Calls

/-!
# What a sync does on its turn

`SyncStage.Change` lists everything that can happen to a sync in flight: its turns, the answers to
what it asks for, and being given up. There is one rule for each, with the session before and after,
the place the sync gets to (none when it has returned) and the act that others would tell of it.
`change_of_moves` and `change_of_ends` say that the list is complete, so nothing after this module
opens a turn of a sync.

**Acts.** An act is what a history of a session keeps of a turn: that the graph was serialized, that
the lock was taken, that a frame of the task was taken in, that a problem was recorded. An act is
read off the turn itself (`act?`).

**What an act does.** The project, the graph and the status change as the act says (`Act.rewrite`,
`Act.redraw`, `Act.note?`, `Act.flag?`) and in no other way: `Change.project`, `Change.graph`,
`Change.message`, `Change.syncing` and `Change.lastSynced`. So what a history knows of the acts is
all there is to know of them. What a sync returns is told by its last act (`result?_of_ends`).
-/

namespace GraphSession

/-- What a sync has done on a turn, as a history of the session tells it. -/
inductive Act where
  /-- Took a snapshot of the graph. -/
  | serialized (w : Workflow)
  /-- Has its picture or does not get one, and joins the line of the lock. -/
  | captured (ticket : Nat) (picture : Except Failure (Option String))
  /-- Took the lock. -/
  | began (generation : Nat) (clock : Moment)
  /-- Put its snapshot into the project and submits the project. -/
  | submitted (ticket : Nat) (p : Project)
  /-- Got the answer of the backend. -/
  | replied (r : Except Failure SubmitReply)
  /-- Put the project into place that the backend has answered with. -/
  | finished (p : Project)
  /-- Follows the task that the backend has started, when there were that many channels. -/
  | followed (task : Nat) (taskId : String) (channels : Nat)
  /-- Took in a frame of its task. -/
  | took (task : Nat) (text : String)
  /-- Its task has ended. -/
  | ended (outcome : Monitor.Outcome)
  /-- Wrote the project back into the graph, and returns. -/
  | wroteBack (outcome : Option Monitor.Outcome)
  /-- Recorded a problem, and returns it. -/
  | failed (e : Failure)
  /-- Returns and touches nothing. -/
  | withdrew (r : Except Failure Unit)

namespace Act

/-- What an act makes of the project. -/
def rewrite : Act → Project → Project
  | began _ clock, p => { p with updatedAt := clock }
  | submitted _ q, _ | finished q, _ => q
  | took _ text, p => p.takeText text
  | _, p => p

/-- Whether the sync has taken its snapshot now. -/
def isSerialization : Act → Bool
  | serialized _ => true
  | _ => false

/-- Whether the sync has its picture now, or does not get one. -/
def isCapture : Act → Bool
  | captured _ _ => true
  | _ => false

/-- Whether the sync has asked the backend now. -/
def isSubmission : Act → Bool
  | submitted _ _ => true
  | _ => false

/-- Whether the sync has returned, and said something to the user. -/
def isClosing : Act → Bool
  | failed _ | wroteBack _ => true
  | _ => false

/-- What an act makes of the graph, when that workflow is in the project. -/
def redraw : Act → Workflow → EditorGraph → EditorGraph
  | wroteBack _, w, g => g.adopt w
  | _, _, g => g

/-- What an act puts into the message of the status, if it touches the message. -/
def note? : Act → Option (Option String)
  | captured _ picture => some (SyncStage.pictureNotice picture)
  | failed e => some (Operation.sync.notice? e)
  | wroteBack (some (.ok r)) =>
    if r.state = .timedOut then some (some (SyncStage.timeoutNotice r.taskId)) else none
  | _ => none

/-- What an act says of whether a sync is under way, if it says anything. -/
def flag? : Act → Option Bool
  | began _ _ => some true
  | failed _ | wroteBack _ => some false
  | _ => none

/-- What a sync returns with the act. -/
def result? : Act → Option (Except Failure Unit)
  | failed e => some (.error e)
  | wroteBack _ => some (.ok ())
  | withdrew r => some r
  | _ => none

/-- The act of getting an answer. Nothing is told of a picture before the sync goes on. -/
def ofAnswer : (r : Request) → Except Failure r.Answer → Option Act
  | .submission _, a => some (replied a)
  | _, _ => none

end Act

namespace SyncStage

/-- The act of a sync that has come back with the lock in hand. -/
def closing (s : Session) (generation : Nat) (outcome : Option Monitor.Outcome) : Act :=
  if s.generation = generation then
    match outcome with
    | some (.error e) => if e.isCancelled then .withdrew (.ok ()) else .failed e
    | _ => .wroteBack outcome
  else .withdrew (overtaken outcome)

/-- A task that timed out is a problem. -/
def noteTimeout (s : Session) : Option Monitor.Outcome → Session
  | some (.ok r) =>
    if r.state = .timedOut then
      s.onStatus fun t ↦ { t with message := some (timeoutNotice r.taskId) }
    else s
  | _ => s

/-- The act of a sync on a turn. -/
def act? (s : Session) (stage : SyncStage) : Option Act :=
  match stage, stage.turn s with
  | .called, .moves _ (.capturing w) => some (.serialized w)
  | .captured _ picture, .moves _ (.queued ticket _ _) => some (.captured ticket picture)
  | .queued _ _ _, .moves _ (.stopping _ generation _ _ _) => some (.began generation s.clock)
  | .stopping ticket _ _ _ _, .moves _ (.submitting _ _ p) => some (.submitted ticket p)
  | .stopping _ _ _ _ _, .ends _ (.error e) => some (.failed e)
  | .answered _ _ _, .ends _ (.error e) => some (.failed e)
  | .answered _ _ (.ok (.done p)), .moves _ _ => some (.finished p)
  | .answered _ _ (.ok (.task id)), .moves _ (.following _ m) =>
    some (.followed m.ticket id s.desk.connector.taskIds.length)
  | .following _ m, .moves _ (.following _ _) => (m.intake? s.desk).map (.took m.ticket)
  | .following _ _, .moves _ (.returning _ _ (some o)) => some (.ended o)
  | .returning _ generation outcome, .ends _ _ => some (closing s generation outcome)
  | _, _ => none

/-- What can happen to a sync in flight. -/
inductive Change (s : Session) : SyncStage → Session → Option SyncStage → Option Act → Prop
  | serialize :
      Change s .called s.forgetUnreferenced (some (.capturing s.graph.toWorkflow))
        (some (.serialized s.graph.toWorkflow))
  /-- The question for a picture is answered. -/
  | picture (w : Workflow) (a : Except Failure (Option String)) :
      Change s (.capturing w) s (some (.captured w a)) none
  | queue (w : Workflow) (a : Except Failure (Option String)) :
      Change s (.captured w a)
        { s with status := { s.status with message := pictureNotice a }, lock := s.lock.join.2 }
        (some (.queued s.lock.tickets w (pictureOf a))) (some (.captured s.lock.tickets a))
  | begin (t : Nat) (w : Workflow) (a : Option String) (held : s.lock.isHeldBy t = true) :
      Change s (.queued t w a) (beginGeneration s).2
        (some (.stopping t (s.generation + 1) w a (beginGeneration s).1))
        (some (.began (s.generation + 1) s.clock))
  | submit (t g : Nat) (w : Workflow) (a : Option String) (before : Option Nat) (d : Desk)
      (free : s.desk.beginSubmission = .ok d) (ended : hasEnded s.desk before = true) :
      Change s (.stopping t g w a before)
        { s with desk := { d with project := snapshot d.project w a } }
        (some (.submitting t g (snapshot d.project w a)))
        (some (.submitted t (snapshot d.project w a)))
  | refuse (t g : Nat) (w : Workflow) (a : Option String) (before : Option Nat) (e : Failure)
      (taken : s.desk.beginSubmission = .error e) (ended : hasEnded s.desk before = true) :
      Change s (.stopping t g w a before) (releaseLock (s.recordFailure e) t) none
        (some (.failed e))
  /-- The submission is answered. -/
  | reply (t g : Nat) (p : Project) (r : Except Failure SubmitReply) :
      Change s (.submitting t g p) s (some (.answered t g r)) (some (.replied r))
  | reject (t g : Nat) (e : Failure) :
      Change s (.answered t g (.error e))
        (releaseLock ((endSubmission s .errored).recordFailure e) t) none (some (.failed e))
  | finish (t g : Nat) (p : Project) (s' : Session)
      (released : s' = releaseLock (endSubmission (s.onProject fun _ ↦ p) .completed) t) :
      Change s (.answered t g (.ok (.done p))) { s' with lock := s'.lock.join.2 }
        (some (.returning s'.lock.tickets g none)) (some (.finished p))
  | follow (t g : Nat) (id : String) (m : Monitor) (d : Desk)
      (registered : Monitor.register s.desk id = .ok (m, d)) :
      Change s (.answered t g (.ok (.task id))) (releaseLock { s with desk := d } t)
        (some (.following g m)) (some (.followed m.ticket id s.desk.connector.taskIds.length))
  | unfollow (t g : Nat) (id : String) (e : Failure)
      (taken : Monitor.register s.desk id = .error e) :
      Change s (.answered t g (.ok (.task id)))
        { releaseLock s t with lock := (releaseLock s t).lock.join.2 }
        (some (.returning (releaseLock s t).lock.tickets g (some (.error e)))) none
  /-- Takes a frame in. -/
  | take (g : Nat) (m m' : Monitor) (d : Desk) (text : String)
      (intake : m.intake? s.desk = some text)
      (follows : Monitor.Follows s.desk m (some text) d m') :
      Change s (.following g m) { s with desk := d } (some (.following g m'))
        (some (.took m.ticket text))
  /-- Opens the channel, or tells the server that the task is cancelled, or throws a frame away. -/
  | pass (g : Nat) (m m' : Monitor) (d : Desk) (follows : Monitor.Follows s.desk m none d m') :
      Change s (.following g m) { s with desk := d } (some (.following g m')) none
  | comeBack (g : Nat) (m : Monitor) (d : Desk) (o : Monitor.Outcome)
      (finishes : Monitor.Finishes s.desk m o d)
      (told : ∀ e, o = .error e → e.isCancelled = true → m.isTold s.desk = true) :
      Change s (.following g m) { s with desk := d, lock := s.lock.join.2 }
        (some (.returning s.lock.tickets g (some o))) (some (.ended o))
  | writeBack (t : Nat) (o : Option Monitor.Outcome) (held : s.lock.isHeldBy t = true)
      (ended : ∀ e, o ≠ some (.error e)) :
      Change s (.returning t s.generation o) (releaseLock (noteTimeout s o).writeBack t) none
        (some (.wroteBack o))
  | quit (t : Nat) (e : Failure) (held : s.lock.isHeldBy t = true)
      (cancelled : e.isCancelled = true) :
      Change s (.returning t s.generation (some (.error e))) (releaseLock s t) none
        (some (.withdrew (.ok ())))
  | fail (t : Nat) (e : Failure) (held : s.lock.isHeldBy t = true)
      (uncancelled : e.isCancelled = false) :
      Change s (.returning t s.generation (some (.error e))) (releaseLock (s.recordFailure e) t)
        none (some (.failed e))
  | overtake (t g : Nat) (o : Option Monitor.Outcome) (held : s.lock.isHeldBy t = true)
      (later : s.generation ≠ g) :
      Change s (.returning t g o) (releaseLock s t) none (some (.withdrew (overtaken o)))
  | abandon (stage : SyncStage) : Change s stage (stage.abandon s) none none

variable {s s' : Session} {stage stage' : SyncStage}

/-- **Every turn that goes on is a change.** -/
theorem change_of_moves (h : stage.turn s = .moves s' stage') :
    Change s stage s' (some stage') (stage.act? s) := by
  unfold act?
  cases stage with
  | called =>
    obtain ⟨rfl, rfl⟩ := Turn.moves.inj h
    exact .serialize
  | capturing w => cases h
  | captured w a =>
    obtain ⟨rfl, rfl⟩ := Turn.moves.inj h
    exact .queue w a
  | queued t w a =>
    rw [h]
    simp only [turn, turnQueued] at h
    split_ifs at h with held
    obtain ⟨rfl, rfl⟩ := Turn.moves.inj h
    exact .begin t w a held
  | stopping t g w a before =>
    rw [h]
    simp only [turn, turnStopping] at h
    split_ifs at h with ended
    split at h
    · cases h
    · rename_i d hd
      obtain ⟨rfl, rfl⟩ := Turn.moves.inj h
      exact .submit t g w a before d hd ended
  | submitting t g p => cases h
  | answered t g r =>
    rw [h]
    simp only [turn, turnAnswered] at h
    split at h
    · cases h
    · obtain ⟨rfl, rfl⟩ := Turn.moves.inj h
      exact .finish t g _ _ rfl
    · split at h
      · rename_i hm
        obtain ⟨rfl, rfl⟩ := Turn.moves.inj h
        exact .follow t g _ _ _ hm
      · rename_i he
        obtain ⟨rfl, rfl⟩ := Turn.moves.inj h
        exact .unfollow t g _ _ he
  | following g m =>
    rw [h]
    simp only [turn, turnFollowing] at h
    split at h
    · cases h
    · rename_i hm
      obtain ⟨rfl, rfl⟩ := Turn.moves.inj h
      have follows := Monitor.follows_of_turn hm
      -- whether a text was taken in is read off the place before the turn
      show Change s _ _ _ ((m.intake? s.desk).map (.took m.ticket))
      cases hintake : m.intake? s.desk with
      | none => exact .pass g m _ _ (hintake ▸ follows)
      | some text => exact .take g m _ _ text hintake (hintake ▸ follows)
    · rename_i hm
      obtain ⟨rfl, rfl⟩ := Turn.moves.inj h
      refine .comeBack g m _ _ (Monitor.finishes_of_turn hm) ?_
      rintro e rfl
      exact Monitor.isTold_of_turn hm
  | returning t g o =>
    simp only [turn, turnReturning] at h
    split_ifs at h

/-- The end of a sync that was not overtaken is a change. -/
theorem change_of_conclude {t : Nat} (o : Option Monitor.Outcome)
    (held : s.lock.isHeldBy t = true) :
    Change s (.returning t s.generation o) (releaseLock (conclude s o).1 t) none
      (some (closing s s.generation o)) := by
  unfold closing
  rw [if_pos rfl]
  rcases o with _ | e | r
  · exact .writeBack t none held nofun
  · by_cases cancelled : e.isCancelled = true
    · simp only [conclude, if_pos cancelled]
      exact .quit t e held cancelled
    · simp only [conclude, if_neg cancelled]
      exact .fail t e held (by simpa using cancelled)
  · have hconclude : (conclude s (some (.ok r))).1 = (noteTimeout s (some (.ok r))).writeBack := by
      rw [conclude, noteTimeout]
      split_ifs <;> rfl
    rw [hconclude]
    exact .writeBack t _ held nofun

/-- What a sync returns that was not overtaken. -/
theorem result?_closing {g : Nat} (current : s.generation = g) (o : Option Monitor.Outcome) :
    (closing s g o).result? = some (conclude s o).2 := by
  unfold closing
  rw [if_pos current]
  rcases o with _ | e | r
  · rfl
  · by_cases cancelled : e.isCancelled = true
    · simp only [conclude, if_pos cancelled]
      rfl
    · simp only [conclude, if_neg cancelled]
      rfl
  · simp only [conclude]
    split_ifs <;> rfl

/-- **Every turn that returns is a change.** -/
theorem change_of_ends {r : Except Failure Unit} (h : stage.turn s = .ends s' r) :
    Change s stage s' none (stage.act? s) := by
  unfold act?
  cases stage with
  | called => cases h
  | capturing w => cases h
  | captured w a => cases h
  | queued t w a =>
    simp only [turn, turnQueued] at h
    split_ifs at h
  | stopping t g w a before =>
    rw [h]
    simp only [turn, turnStopping] at h
    split_ifs at h with ended
    split at h
    · rename_i e he
      obtain ⟨rfl, rfl⟩ := Turn.ends.inj h
      exact .refuse t g w a before e he ended
    · cases h
  | submitting t g p => cases h
  | answered t g r =>
    rw [h]
    simp only [turn, turnAnswered] at h
    split at h
    · obtain ⟨rfl, rfl⟩ := Turn.ends.inj h
      exact .reject t g _
    · cases h
    · split at h <;> cases h
  | following g m =>
    simp only [turn, turnFollowing] at h
    split at h <;> cases h
  | returning t g o =>
    rw [h]
    simp only [turn, turnReturning] at h
    split_ifs at h with held current
    · obtain ⟨rfl, rfl⟩ := Turn.ends.inj h
      subst current
      -- it was not overtaken, and says what has become of its task
      exact change_of_conclude o (by simpa using held)
    · obtain ⟨rfl, rfl⟩ := Turn.ends.inj h
      simp only [closing, if_neg current]
      exact .overtake t g o (by simpa using held) current

/-- **A sync returns what its last act says.** -/
theorem result?_of_ends {r : Except Failure Unit} (h : stage.turn s = .ends s' r) :
    (stage.act? s).bind Act.result? = some r := by
  unfold act?
  cases stage with
  | stopping t g w a before =>
    rw [h]
    -- the task before has not left in time
    simp only [turn, turnStopping] at h
    split_ifs at h
    split at h
    · obtain ⟨-, rfl⟩ := Turn.ends.inj h
      rfl
    · cases h
  | answered t g r =>
    rw [h]
    -- the backend has answered with a failure
    simp only [turn, turnAnswered] at h
    split at h
    · obtain ⟨-, rfl⟩ := Turn.ends.inj h
      rfl
    · cases h
    · split at h <;> cases h
  | returning t g o =>
    rw [h]
    -- the sync comes back, and is overtaken or not
    simp only [turn, turnReturning] at h
    split_ifs at h with held current
    · obtain ⟨-, rfl⟩ := Turn.ends.inj h
      exact result?_closing current o
    · obtain ⟨-, rfl⟩ := Turn.ends.inj h
      simp only [closing, if_neg current]
      rfl
  | queued t w a =>
    simp only [turn, turnQueued] at h
    split_ifs at h
  | following g m =>
    simp only [turn, turnFollowing] at h
    split at h <;> cases h
  | _ => cases h

/-- **Where a sync returns a failure**: it may not submit, or its submission was answered with the
failure, or it comes back with it. -/
theorem Change.of_error {a : Option Act} {e : Failure} (h : Change s stage s' none a)
    (hresult : a.bind Act.result? = some (.error e)) :
    (∃ t g w pic before, stage = .stopping t g w pic before ∧ hasEnded s.desk before = true ∧
        s.desk.beginSubmission = .error e) ∨
      (∃ t g, stage = .answered t g (.error e)) ∨
      ∃ t g, stage = .returning t g (some (.error e)) ∧ e.isCancelled = false := by
  cases h with
  | refuse t g w pic before e' taken ended =>
    obtain rfl := Except.error.inj (Option.some.inj hresult)
    exact .inl ⟨t, g, w, pic, before, rfl, ended, taken⟩
  | reject t g e' =>
    obtain rfl := Except.error.inj (Option.some.inj hresult)
    exact .inr (.inl ⟨t, g, rfl⟩)
  | writeBack | quit | abandon => cases hresult
  | fail t e' held uncancelled =>
    obtain rfl := Except.error.inj (Option.some.inj hresult)
    exact .inr (.inr ⟨t, _, rfl, uncancelled⟩)
  | overtake t g o held later =>
    have hovertaken : overtaken o = .error e := Option.some.inj hresult
    rcases o with _ | e' | r
    · cases hovertaken
    · by_cases cancelled : e'.isCancelled = true
      · rw [overtaken, if_pos cancelled] at hovertaken
        cases hovertaken
      · rw [overtaken, if_neg cancelled] at hovertaken
        obtain rfl := Except.error.inj hovertaken
        exact .inr (.inr ⟨t, g, rfl, by simpa using cancelled⟩)
    · cases hovertaken

/-- **Every answer is a change.** -/
theorem change_of_resume {q : Question SyncStage} (h : stage.question? = some q)
    (a : Except Failure q.request.Answer) :
    Change s stage s (some (q.resume a)) (Act.ofAnswer q.request a) := by
  cases stage with
  | capturing w =>
    obtain rfl := Option.some.inj h
    exact .picture w a
  | submitting t g p =>
    obtain rfl := Option.some.inj h
    exact .reply t g p a
  | _ => cases h

/-! ### What the acts do -/

variable {next : Option SyncStage} {a : Option Act}

/-- The end of a submission is a matter of the slot, not of the project. -/
@[simp] theorem project_endSubmission (s : Session) (o : TaskState) :
    (endSubmission s o).project = s.project := by
  rcases s.desk.attempt_finishSubmission o with h | h <;>
    simp only [endSubmission, Session.onDesk, Session.project, h]

theorem connector_endSubmission (s : Session) (o : TaskState) :
    (endSubmission s o).desk.connector = s.desk.connector := by
  rcases s.desk.attempt_finishSubmission o with h | h <;>
    simp only [endSubmission, Session.onDesk, h]

/-- Only the message of the status is touched by a task that timed out. -/
theorem noteTimeout_eq (s : Session) (o : Option Monitor.Outcome) :
    noteTimeout s o =
      { s with status :=
        { s.status with message := (Act.wroteBack o).note?.getD s.status.message } } := by
  unfold noteTimeout
  split
  · by_cases ht : ‹TaskReport›.state = .timedOut
    · rw [if_pos ht, Act.note?, if_pos ht]
      rfl
    · rw [if_neg ht, Act.note?, if_neg ht]
      rfl
  · rename_i hne
    have hnote : (Act.wroteBack o).note? = none := by
      rcases o with _ | e | r
      · rfl
      · rfl
      · exact absurd rfl (hne r)
    rw [hnote]
    rfl

/-- The beginning of a generation puts down the time, and changes nothing else of the project. -/
theorem project_begin (s : Session) :
    (beginGeneration s).2.project = { s.project with updatedAt := s.clock } := by
  have h : s.desk.signalCancel.2.project = s.desk.project :=
    (congrArg Desk.project s.desk.signalCancel_eq :)
  show { s.desk.signalCancel.2.project with updatedAt := s.clock } = _
  rw [h]
  rfl

/-- **The project changes as the act says.** -/
theorem Change.project (h : Change s stage s' next a) :
    s'.project = a.elim s.project fun a ↦ a.rewrite s.project := by
  cases h with
  | begin => exact project_begin s
  | refuse => rfl
  | reject => exact project_endSubmission s _
  | finish t g p s' released =>
    subst released
    exact project_endSubmission _ _
  | follow t g id m d registered =>
    obtain ⟨-, -, rfl⟩ := Monitor.eq_of_register registered
    rfl
  | take g m m' d text intake follows => exact follows.project
  | pass g m m' d follows => exact follows.project
  | comeBack g m d o finishes => exact finishes.project
  | writeBack t o held ended =>
    rw [noteTimeout_eq]
    rfl
  | abandon =>
    cases stage with
    | following g m => exact (Monitor.finishes_of_abandon).project
    | _ => rfl
  | _ => rfl

/-- **The graph changes as the act says**, by the workflow that is in the project then. -/
theorem Change.graph (h : Change s stage s' next a) :
    s'.graph = a.elim s.graph fun a ↦ a.redraw s.project.workflow s.graph := by
  cases h with
  | finish t g p s' released =>
    subst released
    rfl
  | writeBack t o held ended =>
    rw [noteTimeout_eq]
    rfl
  | abandon => cases stage <;> rfl
  | _ => rfl

/-- **The message of the status changes as the act says.** -/
theorem Change.message (h : Change s stage s' next a) :
    s'.status.message = (a.bind Act.note?).getD s.status.message := by
  cases h with
  | finish t g p s' released =>
    subst released
    rfl
  | writeBack t o held ended =>
    rw [noteTimeout_eq]
    rfl
  | abandon => cases stage <;> rfl
  | _ => rfl

/-- **Whether a sync counts as under way changes as the act says.** -/
theorem Change.syncing (h : Change s stage s' next a) :
    s'.status.syncing = (a.bind Act.flag?).getD s.status.syncing := by
  cases h with
  | finish t g p s' released =>
    subst released
    rfl
  | abandon => cases stage <;> rfl
  | _ => rfl

/-- The time of the last results changes only when they are written back. -/
theorem Change.lastSynced (h : Change s stage s' next a) (ha : ∀ o, a ≠ some (.wroteBack o)) :
    s'.status.lastSynced = s.status.lastSynced := by
  cases h with
  | finish t g p s' released =>
    subst released
    rfl
  | writeBack t o held ended => exact absurd rfl (ha o)
  | abandon => cases stage <;> rfl
  | _ => rfl

/-- The channels of all tasks stay. -/
theorem Change.taskIds (h : Change s stage s' next a) :
    s.desk.connector.taskIds <+: s'.desk.connector.taskIds := by
  cases h with
  | begin =>
    -- a cancellation goes over a channel that is there
    have hconnector : (beginGeneration s).2.desk.connector = s.desk.connector :=
      (congrArg Desk.connector s.desk.signalCancel_eq :)
    exact hconnector ▸ List.prefix_refl _
  | submit t g w a before d free =>
    obtain ⟨-, rfl⟩ := Desk.eq_of_beginSubmission free
    exact List.prefix_refl _
  | follow t g id m d registered =>
    obtain ⟨-, -, rfl⟩ := Monitor.eq_of_register registered
    exact List.prefix_refl _
  | finish t g p s' released =>
    subst released
    have hconnector := connector_endSubmission (s.onProject fun _ ↦ p) .completed
    exact hconnector ▸ List.prefix_refl _
  | reject t g e =>
    have hconnector := connector_endSubmission s .errored
    exact hconnector ▸ List.prefix_refl _
  | take g m m' d text intake follows => exact follows.taskIds
  | pass g m m' d follows => exact follows.taskIds
  | comeBack g m d o finishes => exact finishes.taskIds
  | writeBack t o held ended => exact noteTimeout_eq s o ▸ List.prefix_refl _
  | abandon =>
    cases stage with
    | following g m => exact (Monitor.finishes_of_abandon).taskIds
    | _ => exact List.prefix_refl _
  | _ => exact List.prefix_refl _

end SyncStage

end GraphSession
