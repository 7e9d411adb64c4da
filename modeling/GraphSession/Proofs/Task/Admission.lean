import GraphSession.Proofs.Task.Occupancy

/-!
# Who is admitted to the slot

A submission begins, and a task is registered, exactly when no task is in the slot (`admission`).
The slot has two variables, its state and the task in it, and both are looked at: a task in the slot
is refused by `ensureFree`, and a state from which nothing can start would be refused by
`transition`. **The second never happens**, because the slot without a task is never left in the
state `streaming` (`state_ne_streaming_run`); every other state lets a submission or a task begin.

A refusal is of one kind only: it names the task in the slot, and leaves everything as it is.
-/

namespace GraphSession

/-- A submission that ends without a task has completed or failed. -/
def TaskHappening.endsWell : TaskHappening → Bool
  | settle outcome => outcome = .completed || outcome = .errored
  | _ => true

namespace Desk

variable {d : Desk}

theorem ensureFree_of_active {a : ActiveTask} (h : d.active = some a) :
    d.ensureFree = .error (.taskActive a.taskId) := by
  rw [ensureFree, h]

/-- With a task in the slot no submission begins. -/
theorem beginSubmission_of_active {a : ActiveTask} (h : d.active = some a) :
    d.beginSubmission = .error (.taskActive a.taskId) := by
  rw [beginSubmission, ensureFree_of_active h]

/-- With a task in the slot no other is registered. -/
theorem register_of_active {a : ActiveTask} (h : d.active = some a) (taskId : String) :
    d.register taskId = .error (.taskActive a.taskId) := by
  rw [register, ensureFree_of_active h]

/-- A task may begin in any state but that of a task under way. -/
theorem register_of_free (h : d.active = none) (hs : d.state ≠ .streaming) (taskId : String) :
    d.register taskId = .ok (d.tickets, d.occupied taskId) := by
  have hfree : d.ensureFree = .ok () := by rw [ensureFree, h]
  have hstate : d.transition .streaming = .ok { d with state := .streaming } := by
    unfold transition
    cases hstate : d.state <;> simp_all <;> rfl
  rw [register, hfree, hstate]
  rfl

end Desk

namespace TaskCall

variable {d : Desk}

/-- With a task in the slot no other is monitored. -/
theorem monitor_of_active {a : ActiveTask} (h : d.active = some a) (taskId : String) :
    monitor d taskId = (.refused (.taskActive a.taskId), d) := by
  rw [monitor, Monitor.register, Desk.register_of_active h]
  rfl

/-- With a free slot a task is registered and followed. -/
theorem monitor_of_free (h : d.active = none) (hs : d.state ≠ .streaming) (taskId : String) :
    monitor d taskId = (.follow (.registered taskId d.tickets), d.occupied taskId) := by
  rw [monitor, Monitor.register, Desk.register_of_free h hs]
  rfl

end TaskCall

namespace TaskCourse

variable {w w' : TaskCourse} {h : TaskHappening}

/-! ### The state of a slot without a task -/

/-- As long as submissions end well, a free slot is not left in the state of a running task. -/
theorem Step.state_ne_streaming (hstep : w.Step h w') (hw : w.Seating) (hends : h.endsWell = true)
    (ih : w.desk.active = none → w.desk.state ≠ .streaming) (hnone : w'.desk.active = none) :
    w'.desk.state ≠ .streaming := by
  cases hstep with
  | enroll taskId free desk =>
    -- a task that is registered is in the slot
    rw [desk] at hnone
    cases hnone
  | move before move =>
    have hactive : w'.desk.active = w.desk.active := congrArg Slot.active move.follows.slot
    rw [hactive, (hw.of_follower? before).active] at hnone
    cases hnone
  | leave caller before leaves =>
    -- a task that leaves, leaves a terminal state
    have terminal := leaves.terminal
    rw [leaves.state]
    rintro rfl
    cases terminal
  | aside aside =>
    have hstate := aside.state
    generalize w'.desk.state = st at hstate
    cases hstate with
    | same => exact ih (aside.active ▸ hnone)
    | begin => nofun
    | settle o =>
      -- a submission that ends well does not end in the state of a running task
      rintro rfl
      cases hends

/-- **A slot without a task is never in the state of a task under way.** -/
theorem state_ne_streaming_run (p : Project) (timeout : Nat) (hs : List TaskHappening)
    (hends : ∀ h ∈ hs, h.endsWell = true) :
    ((ofProject p timeout).run hs).desk.active = none →
      ((ofProject p timeout).run hs).desk.state ≠ .streaming :=
  run_induction_of (P := fun w ↦ w.desk.active = none → w.desk.state ≠ .streaming)
    (fun _ ↦ by simp [ofProject, Desk.start])
    (fun {hs h w'} hends ih hstep ↦
      hstep.state_ne_streaming (seating_run p timeout hs) hends ih) hs hends

/-! ### Refusals -/

/-- Only a call that was made is refused, and then it stays as it is until it returns. -/
theorem refused_of_arises {cause : Failure} {j : Nat} (hj : w.Arises j (.refused cause) h) :
    w.call? j = some (.refused cause) ∨
      ∃ taskId, (TaskCall.monitor w.desk taskId).1 = .refused cause := by
  cases hj with
  | was before => exact .inl before
  | follow taskId last made => exact .inr ⟨taskId, made⟩
  | cancel last made => cases made
  | turn before moves =>
    -- no turn leads there
    rcases TaskCall.moves_cases moves with ⟨m, m', -, hc', -⟩ | ⟨ticket, -, hc', -⟩ <;> cases hc'

/-- **Every refusal names the task that was in the slot.** -/
theorem refused_run (p : Project) (timeout : Nat) (hs : List TaskHappening)
    (hends : ∀ h ∈ hs, h.endsWell = true) {j : Nat} {cause : Failure}
    (hj : ((ofProject p timeout).run hs).call? j = some (.refused cause)) :
    ∃ taskId, cause = .taskActive taskId := by
  induction hs using List.reverseRecOn with
  | nil => simp [ofProject, call?, callAt?] at hj
  | append_singleton hs h ih =>
    rw [run_concat] at hj
    have hends' : ∀ h ∈ hs, h.endsWell = true := fun h' hh' ↦ hends h' (List.mem_append_left _ hh')
    rcases refused_of_arises (arises_of_step hj) with hj | ⟨taskId, hrefused⟩
    · exact ih hends' hj
    · cases hactive : ((ofProject p timeout).run hs).desk.active with
      | none =>
        rw [TaskCall.monitor_of_free hactive (state_ne_streaming_run p timeout hs hends' hactive)]
          at hrefused
        cases hrefused
      | some a =>
        rw [TaskCall.monitor_of_active hactive] at hrefused
        exact ⟨a.taskId, (TaskCall.refused.inj hrefused).symm⟩

/-! ### Admission -/

/-- Submissions and tasks are admitted exactly when no task is in the slot. -/
structure Admits (w : TaskCourse) : Prop where
  /-- A task is in the slot exactly as long as it is followed. -/
  active_iff : ∀ a, w.desk.active = some a ↔
    ∃ i m, w.follower? i = some m ∧ a = ⟨m.taskId, m.ticket⟩
  submission_fails_iff : (∃ e, w.desk.beginSubmission = .error e) ↔ w.desk.active.isSome
  monitor_fails_iff : ∀ taskId, (∃ e, Monitor.register w.desk taskId = .error e) ↔
    w.desk.active.isSome
  /-- A submission that is refused changes nothing. -/
  submission_refused : ∀ a, w.desk.active = some a →
    w.desk.beginSubmission = .error (.taskActive a.taskId) ∧ w.step .begin = w
  /-- A task that is refused changes nothing but that there is a call, which returns the refusal. -/
  monitor_refused : ∀ a taskId, w.desk.active = some a →
    Monitor.register w.desk taskId = .error (.taskActive a.taskId) ∧
      w.step (.monitor taskId) = w.launch w.desk (.refused (.taskActive a.taskId))
  submission_begins : w.desk.active = none →
    w.desk.beginSubmission = .ok { w.desk with state := .submitting }
  monitor_begins : ∀ taskId, w.desk.active = none →
    Monitor.register w.desk taskId =
      .ok (.registered taskId w.desk.tickets, w.desk.occupied taskId)
  /-- A call that was refused returns that on its turn, and neither this nor its being given up
  changes the desk. -/
  refusal_returned : ∀ j cause, w.call? j = some (.refused cause) →
    (∃ taskId, cause = .taskActive taskId) ∧ w.Returns j (.followed (.error cause)) ∧
      (w.step (.turn j)).desk = w.desk ∧ (w.step (.drop j)).desk = w.desk

/-- **Nothing is refused but for a task in the slot,** in every course in which submissions that
start no task complete or fail. -/
theorem admission (p : Project) (timeout : Nat) (hs : List TaskHappening)
    (hends : ∀ h ∈ hs, h.endsWell = true) : ((ofProject p timeout).run hs).Admits := by
  have seating := seating_run p timeout hs
  have hstate := state_ne_streaming_run p timeout hs hends
  have hrefused : ∀ j cause, ((ofProject p timeout).run hs).call? j = some (.refused cause) →
      ∃ taskId, cause = .taskActive taskId := fun _ _ ↦ refused_run p timeout hs hends
  -- from here on only the state of the slot matters
  generalize (ofProject p timeout).run hs = w at seating hstate hrefused
  have submission_refused : ∀ a, w.desk.active = some a →
      w.desk.beginSubmission = .error (.taskActive a.taskId) := fun a ↦
    Desk.beginSubmission_of_active
  have monitor_refused : ∀ a taskId, w.desk.active = some a →
      Monitor.register w.desk taskId = .error (.taskActive a.taskId) := fun a taskId ha ↦ by
    rw [Monitor.register, Desk.register_of_active ha]
    rfl
  have submission_begins : w.desk.active = none →
      w.desk.beginSubmission = .ok { w.desk with state := .submitting } := fun hnone ↦
    Desk.beginSubmission_eq hnone (hstate hnone)
  have monitor_begins : ∀ taskId, w.desk.active = none → Monitor.register w.desk taskId =
      .ok (.registered taskId w.desk.tickets, w.desk.occupied taskId) := fun taskId hnone ↦ by
    rw [Monitor.register, Desk.register_of_free hnone (hstate hnone)]
    rfl
  refine
    { active_iff := fun a ↦ ⟨seating.of_active, ?_⟩
      submission_fails_iff := ?_
      monitor_fails_iff := fun taskId ↦ ?_
      submission_refused := fun a ha ↦ ⟨submission_refused a ha, ?_⟩
      monitor_refused := fun a taskId ha ↦ ⟨monitor_refused a taskId ha, ?_⟩
      submission_begins := submission_begins
      monitor_begins := monitor_begins
      refusal_returned := fun j cause hj ↦ ⟨hrefused j cause hj, ⟨_, _, hj, rfl⟩, ?_, ?_⟩ }
  · rintro ⟨i, m, hi, rfl⟩
    exact (seating.of_follower? hi).active
  · cases ha : w.desk.active with
    | none => simp [submission_begins ha]
    | some a => simp [submission_refused a ha]
  · cases ha : w.desk.active with
    | none => simp [monitor_begins taskId ha]
    | some a => simp [monitor_refused a taskId ha]
  · rw [step, submission_refused a ha]
    rfl
  · rw [step, TaskCall.monitor_of_active ha]
  · rw [step, onCall, hj]
    rfl
  · rw [step, onCall, hj]
    rfl

/-- A task is registered and followed, another one and a submission are refused meanwhile, and the
first is cancelled; then a submission begins and fails. -/
def rivalTasks : List TaskHappening :=
  [.begin, .monitor "a", .turn 0, .begin, .monitor "b", .turn 1, .cancel, .turn 2, .turn 0,
    .serve (.close 0), .turn 0, .turn 2, .begin, .settle .errored]

/-- A submission and a task are refused while another task is in the slot, and admitted afterwards.
-/
theorem admission_rivalTasks :
    (∀ h ∈ rivalTasks, h.endsWell = true) ∧
      ((ofProject (.carrying .empty) 1000).run rivalTasks).Admits := by
  have hends : ∀ h ∈ rivalTasks, h.endsWell = true := by simp [rivalTasks, TaskHappening.endsWell]
  exact ⟨hends, admission (.carrying .empty) 1000 rivalTasks hends⟩

end TaskCourse

end GraphSession
