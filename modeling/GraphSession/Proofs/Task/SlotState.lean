import GraphSession.Proofs.Schedule.Moments
import GraphSession.Proofs.Task.Admission

/-!
# What the state says of the task in the slot

The slot keeps one fact twice: that a task is under way is its state `streaming`, and is the task in
it. Registering a task sets both, and the end of a task clears both. The state has one writer more:
a submission that ends without a task. **That one does not look at the slot.** Of a task under way
it finds the state `streaming`, from which it may go on to `completed` or `errored` as the task
itself may, and so it succeeds over the head of the task.

So the two copies agree exactly as long as no submission was ended while the task was in the slot
(`agreement_of_slot`). The second end of a submission is refused, since the state then counts as
`idle`; and when the task ends, the state is moved by force.
-/

namespace GraphSession

namespace Desk

variable {d : Desk} {o : TaskState}

/-- A submission ends well while one is under way, or a task is. -/
theorem finishSubmission_of_underway (ho : o = .completed ∨ o = .errored)
    (h : d.state = .submitting ∨ d.state = .streaming) :
    d.finishSubmission o = .ok { d with state := o } := by
  refine transition_eq ?_ ?_
  · rcases h with h | h <;> rw [h] <;> rfl
  · rcases h with h | h <;> rcases ho with rfl | rfl <;> rw [h] <;> rfl

/-- In any other state there is nothing to end. -/
theorem finishSubmission_of_over (ho : o = .completed ∨ o = .errored)
    (h : d.state ≠ .submitting) (h' : d.state ≠ .streaming) :
    d.finishSubmission o = .error (.invalidTransition .idle o) := by
  unfold finishSubmission transition
  cases hstate : d.state with
  | submitting => exact absurd hstate h
  | streaming => exact absurd hstate h'
  | _ => rcases ho with rfl | rfl <;> rfl

end Desk

namespace TaskCourse

variable {w w' : TaskCourse} {h : TaskHappening} {hs : List TaskHappening} {a : ActiveTask}

/-- A submission was ended while that task was in the slot. -/
def SettledOver (w : TaskCourse) (hs : List TaskHappening) (a : ActiveTask) : Prop :=
  ∃ before h after, hs = before ++ h :: after ∧
    (∃ o, h = .settle o) ∧ (w.run before).desk.active = some a

/-- A submission was ended over a task before the last happening, or by it. -/
theorem settledOver_concat : w.SettledOver (hs ++ [h]) a ↔
    w.SettledOver hs a ∨ (∃ o, h = .settle o) ∧ (w.run hs).desk.active = some a :=
  exists_moment_concat

/-- Nothing else than the end of a submission counts. -/
theorem settledOver_concat_of_ne (hne : ∀ o, h ≠ .settle o) :
    w.SettledOver (hs ++ [h]) a ↔ w.SettledOver hs a := by
  rw [settledOver_concat]
  exact or_iff_left fun hlast ↦ hlast.1.elim hne

theorem tickets_le_run (w : TaskCourse) (hs : List TaskHappening) :
    w.desk.tickets ≤ (w.run hs).desk.tickets :=
  run_induction (P := fun w' ↦ w.desk.tickets ≤ w'.desk.tickets) (Nat.le_refl _)
    (fun ih hstep ↦ Nat.le_trans ih hstep.tickets_le) hs

/-- A task that has been in the slot before has another ticket than the next one. -/
theorem ticket_lt_of_settledOver (p : Project) (timeout : Nat)
    (hover : (ofProject p timeout).SettledOver hs a) :
    a.ticket < ((ofProject p timeout).run hs).desk.tickets := by
  obtain ⟨before, h, after, rfl, -, hactive⟩ := hover
  obtain ⟨i, m, hi, rfl⟩ := (seating_run p timeout before).of_active hactive
  refine Nat.lt_of_lt_of_le ((seating_run p timeout before).of_follower? hi).ticket_lt ?_
  rw [run_append]
  exact tickets_le_run _ _

/-- While a task is passed by, only the end of a submission touches the state. -/
theorem Aside.state_eq (aside : w.Aside h w') (hactive : w.desk.active = some a)
    (hne : ∀ o, h ≠ .settle o) : w'.desk.state = w.desk.state := by
  have hstate := aside.state
  generalize w'.desk.state = st at hstate
  cases hstate with
  | same => rfl
  | begin free =>
    rw [free] at hactive
    cases hactive
  | settle o => exact absurd rfl (hne _)

/-- What the state is while a task is in the slot. -/
structure Stands (w₀ : TaskCourse) (hs : List TaskHappening) (a : ActiveTask) : Prop where
  untouched : ¬ w₀.SettledOver hs a → (w₀.run hs).desk.state = .streaming
  overwritten : w₀.SettledOver hs a →
    (w₀.run hs).desk.state = .completed ∨ (w₀.run hs).desk.state = .errored

namespace Stands

variable {w₀ : TaskCourse} {o : TaskState}

/-- **The state is `streaming` or that of a submission, never both.** -/
theorem streaming_iff_not_settledOver (hw : w₀.Stands hs a) :
    (w₀.run hs).desk.state = .streaming ↔ ¬ w₀.SettledOver hs a := by
  refine ⟨fun hstate hover ↦ ?_, hw.untouched⟩
  rcases hw.overwritten hover with h | h <;> rw [h] at hstate <;> cases hstate

/-- A task in the slot never stands beside a submission. -/
theorem ne_submitting (hw : w₀.Stands hs a) : (w₀.run hs).desk.state ≠ .submitting := by
  by_cases hover : w₀.SettledOver hs a
  · rcases hw.overwritten hover with h | h <;> simp [h]
  · simp [hw.untouched hover]

/-- **The end of a submission finds the task under way, or is refused.** -/
theorem finishSubmission_iff (hw : w₀.Stands hs a) (ho : o = .completed ∨ o = .errored) :
    (∃ d, (w₀.run hs).desk.finishSubmission o = .ok d) ↔ ¬ w₀.SettledOver hs a := by
  rw [← hw.streaming_iff_not_settledOver]
  refine ⟨fun ⟨d, hd⟩ ↦ ?_, fun hstate ↦ ⟨_, Desk.finishSubmission_of_underway ho (.inr hstate)⟩⟩
  by_contra hstate
  rw [Desk.finishSubmission_of_over ho hw.ne_submitting hstate] at hd
  cases hd

/-- The end of a submission over a task overwrites the state. -/
theorem settle (hw : w₀.Stands hs a) (ho : o = .completed ∨ o = .errored)
    (hactive : (w₀.run hs).desk.active = some a) : w₀.Stands (hs ++ [.settle o]) a := by
  have hover : w₀.SettledOver (hs ++ [.settle o]) a :=
    settledOver_concat.2 (.inr ⟨⟨o, rfl⟩, hactive⟩)
  refine ⟨fun hnot ↦ absurd hover hnot, fun _ ↦ ?_⟩
  rw [run_concat, step]
  by_cases hbefore : w₀.SettledOver hs a
  · have hstate := mt hw.streaming_iff_not_settledOver.1 (not_not.2 hbefore)
    rw [Desk.finishSubmission_of_over ho hw.ne_submitting hstate]
    exact hw.overwritten hbefore
  · rw [Desk.finishSubmission_of_underway ho (.inr (hw.untouched hbefore))]
    exact ho

/-- Whatever else happens leaves the state to the task. -/
theorem keep (hw : w₀.Stands hs a) (hne : ∀ o, h ≠ .settle o)
    (hstate : (w₀.run (hs ++ [h])).desk.state = (w₀.run hs).desk.state) :
    w₀.Stands (hs ++ [h]) a := by
  refine ⟨fun hnot ↦ ?_, fun hover ↦ ?_⟩ <;> rw [hstate]
  · exact hw.untouched fun hover ↦ hnot ((settledOver_concat_of_ne hne).2 hover)
  · exact hw.overwritten ((settledOver_concat_of_ne hne).1 hover)

end Stands

/-- One step leaves the state that of the task in the slot, or that of the submission that ended
over it. -/
theorem stands_step (p : Project) (timeout : Nat) {hs : List TaskHappening} {h : TaskHappening}
    (hlast : h.endsWell = true)
    (ih : ∀ a, ((ofProject p timeout).run hs).desk.active = some a →
      (ofProject p timeout).Stands hs a)
    (hstep : ((ofProject p timeout).run hs).Step h ((ofProject p timeout).run (hs ++ [h]))) :
    ∀ a, ((ofProject p timeout).run (hs ++ [h])).desk.active = some a →
      (ofProject p timeout).Stands (hs ++ [h]) a := by
  intro a hactive
  cases hstep with
  | enroll taskId free desk =>
    rw [desk] at hactive
    obtain rfl := Option.some.inj hactive
    refine ⟨fun _ ↦ by rw [desk]; rfl, fun hover ↦ ?_⟩
    -- no submission can have ended over a task with the next ticket
    rcases settledOver_concat.1 hover with hbefore | ⟨⟨o, ho⟩, -⟩
    · exact absurd (ticket_lt_of_settledOver p timeout hbefore) (Nat.lt_irrefl _)
    · cases ho
  | move before move =>
    have hslot := move.follows.slot
    exact (ih a ((congrArg Slot.active hslot).symm.trans hactive)).keep
      nofun (congrArg Slot.state hslot)
  | leave caller before leaves =>
    have seated := (seating_run p timeout hs).of_follower? before
    have hnone := congrArg Slot.active (leaves.slot seated.active seated.unfinished)
    exact absurd (hactive.symm.trans hnone) (Option.some_ne_none a)
  | aside aside =>
    have hbefore := aside.active.symm.trans hactive
    by_cases hsettle : ∃ o, h = .settle o
    · obtain ⟨o, rfl⟩ := hsettle
      exact (ih a hbefore).settle (by simpa [TaskHappening.endsWell] using hlast) hbefore
    · have hne : ∀ o, h ≠ .settle o := fun o ho ↦ hsettle ⟨o, ho⟩
      exact (ih a hbefore).keep hne (aside.state_eq hbefore hne)

/-- After every run in which submissions end well, the state is one of these. -/
theorem stands_run (p : Project) (timeout : Nat) (hs : List TaskHappening)
    (hends : ∀ h ∈ hs, h.endsWell = true) :
    ∀ a, ((ofProject p timeout).run hs).desk.active = some a →
    (ofProject p timeout).Stands hs a := by
  induction hs using List.reverseRecOn with
  | nil => exact fun a hactive ↦ by cases hactive
  | append_singleton hs h ih =>
    have hstep := step_cases ((ofProject p timeout).run hs) h
    rw [← run_concat] at hstep
    have hlast : h.endsWell = true := hends h (List.mem_append_right _ (List.mem_singleton_self h))
    exact stands_step p timeout hlast (ih fun h' hh' ↦ hends h' (List.mem_append_left _ hh')) hstep

/-- What the state of the slot and the task in it have to do with each other. -/
structure Agreement (w₀ : TaskCourse) (hs : List TaskHappening) : Prop where
  /-- They agree exactly if no submission was ended while the task was in the slot. -/
  agree_iff : ((w₀.run hs).desk.active.isSome = true ↔ (w₀.run hs).desk.state = .streaming) ↔
    ∀ a, (w₀.run hs).desk.active = some a → ¬ w₀.SettledOver hs a
  /-- A state that says that a task is under way is right at any rate. -/
  active_of_streaming : (w₀.run hs).desk.state = .streaming → (w₀.run hs).desk.active.isSome = true
  /-- The first end of a submission while a task is in the slot succeeds, and no other one does. -/
  settles_iff : ∀ a o, (w₀.run hs).desk.active = some a → (TaskHappening.settle o).endsWell = true →
    ((∃ d, (w₀.run hs).desk.finishSubmission o = .ok d) ↔ ¬ w₀.SettledOver hs a)
  /-- From then on the state is that of the submission. -/
  overwritten : ∀ a, (w₀.run hs).desk.active = some a → w₀.SettledOver hs a →
    (w₀.run hs).desk.state = .completed ∨ (w₀.run hs).desk.state = .errored

/-- **The state of the slot is that of its task, unless a submission was ended meanwhile,** in every
course in which submissions that start no task complete or fail. -/
theorem agreement_of_slot (p : Project) (timeout : Nat) (hs : List TaskHappening)
    (hends : ∀ h ∈ hs, h.endsWell = true) : (ofProject p timeout).Agreement hs := by
  have vacant := state_ne_streaming_run p timeout hs hends
  have stands := stands_run p timeout hs hends
  refine
    { agree_iff := ?_
      active_of_streaming := fun hstate ↦ ?_
      settles_iff := fun a o ha ho ↦ (stands a ha).finishSubmission_iff ?_
      overwritten := fun a ha ↦ (stands a ha).overwritten }
  · cases ha : ((ofProject p timeout).run hs).desk.active with
    | none => simp [vacant ha]
    | some a => simp [(stands a ha).streaming_iff_not_settledOver]
  · by_contra hnone
    exact vacant (Option.not_isSome_iff_eq_none.1 hnone) hstate
  · simpa [TaskHappening.endsWell] using ho

/-- A submission has started a task, and is ended all the same. -/
def overwrittenTask : List TaskHappening := [.begin, .monitor "t", .settle .completed]

/-- Then the task is in the slot, and the state says that it has completed. -/
theorem agreement_of_overwrittenTask :
    (∀ h ∈ overwrittenTask, h.endsWell = true) ∧
      (ofProject (.carrying .empty) 1000).Agreement overwrittenTask ∧
      ((ofProject (.carrying .empty) 1000).run overwrittenTask).desk.active = some ⟨"t", 0⟩ ∧
      ((ofProject (.carrying .empty) 1000).run overwrittenTask).desk.state = .completed := by
  have hends : ∀ h ∈ overwrittenTask, h.endsWell = true := by
    simp [overwrittenTask, TaskHappening.endsWell]
  exact ⟨hends, agreement_of_slot (.carrying .empty) 1000 overwrittenTask hends, rfl, rfl⟩

end TaskCourse

end GraphSession
