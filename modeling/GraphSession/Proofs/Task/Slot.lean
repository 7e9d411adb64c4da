import Mathlib.Tactic.SplitIfs
import GraphSession.Task.Monitor

/-!
# The slot of the task desk

What the operations on the desk do to the slot: the state, the task in it and the guards. Every one
of them is described by one equation, so that proofs about histories of the desk never unfold them.

* `transition` is refused or moves the state and nothing else, so `force` always arrives at the
  state it is asked for (`force_eq`);
* `beginSubmission` and `register` need a slot without a task, and say so by the shape of what they
  return (`eq_of_beginSubmission`, `eq_of_register`);
* telling a task to end leaves everything but the mark on its guard (`slot_signalCancel`).

**Tickets of guards.** Whether a guard has been told to end matters to its own monitor only. All
that others see of the guards is which tickets they carry, which is why `Slot` keeps the tickets.
-/

namespace GraphSession

/-- What the desk says about the task in the slot. -/
structure Slot where
  state : TaskState
  active : Option ActiveTask
  /-- The tickets of the tasks that have not ended. -/
  unfinished : List Nat

namespace Desk

/-- The state, the task and the guards of a desk. -/
def slot (d : Desk) : Slot := ⟨d.state, d.active, d.guards.map TaskGuard.ticket⟩

/-! ### The state of the slot -/

/-- A transition sets the state, or fails and leaves the desk. -/
theorem transition_cases (d : Desk) (next : TaskState) :
    d.transition next = .ok { d with state := next } ∨ ∃ e, d.transition next = .error e := by
  unfold transition TaskState.step
  generalize (if d.state.isTerminal && next ≠ .idle then TaskState.idle else d.state) = source
  by_cases h : source.canBecome next
  · exact Or.inl (by simp only [h, if_true]; rfl)
  · exact Or.inr ⟨.invalidTransition source next, by simp only [h]; rfl⟩

theorem eq_of_transition {d d' : Desk} {next : TaskState} (h : d.transition next = .ok d') :
    d' = { d with state := next } := by
  rcases d.transition_cases next with h' | ⟨e, h'⟩
  · rw [h'] at h
    exact (Except.ok.inj h).symm
  · rw [h'] at h
    cases h

/-- **The state is moved at any rate**, allowed or not. -/
theorem force_eq (d : Desk) (next : TaskState) : d.force next = { d with state := next } := by
  unfold force
  rcases d.transition_cases next with h | ⟨e, h⟩ <;> rw [h]

/-- A task or a submission under way ends in any state that may follow. -/
theorem transition_eq {d : Desk} {next : TaskState} (hs : d.state.isTerminal = false)
    (hnext : d.state.canBecome next = true) : d.transition next = .ok { d with state := next } := by
  unfold transition TaskState.step
  simp only [hs, Bool.false_and, Bool.false_eq_true, if_false, hnext, if_true]
  rfl

/-- A state that ends a task counts as `idle` for what begins next. -/
theorem transition_submitting {d : Desk} (h : d.state ≠ .streaming) (h' : d.state ≠ .submitting) :
    d.transition .submitting = .ok { d with state := .submitting } := by
  unfold transition
  cases hs : d.state <;> simp_all <;> rfl

/-- From a submission the state goes over to that of a running task. -/
theorem transition_streaming {d : Desk} (h : d.state = .submitting) :
    d.transition .streaming = .ok { d with state := .streaming } := by
  unfold transition
  rw [h]
  rfl

/-! ### Submissions -/

theorem eq_of_ensureFree {d : Desk} (h : d.ensureFree = .ok ()) : d.active = none := by
  unfold ensureFree at h
  split at h
  · cases h
  · assumption

/-- **A submission begins only in a slot without a task.** -/
theorem eq_of_beginSubmission {d d' : Desk} (h : d.beginSubmission = .ok d') :
    d.active = none ∧ d' = { d with state := .submitting } := by
  unfold beginSubmission at h
  split at h
  · cases h
  · rename_i hfree
    refine ⟨eq_of_ensureFree hfree, ?_⟩
    rw [eq_of_transition h]
    split_ifs <;> rfl

/-- And it does begin there, unless the state says that a task is streaming. -/
theorem beginSubmission_eq {d : Desk} (h : d.active = none) (hs : d.state ≠ .streaming) :
    d.beginSubmission = .ok { d with state := .submitting } := by
  have hfree : d.ensureFree = .ok () := by rw [ensureFree, h]
  unfold beginSubmission
  rw [hfree]
  by_cases hsub : d.state = .submitting
  · rw [if_pos hsub]
    exact transition_submitting (by simp) (by simp)
  · rw [if_neg hsub]
    exact transition_submitting hs hsub

/-- The end of a submission moves the state of the slot at most. -/
theorem attempt_finishSubmission (d : Desk) (outcome : TaskState) :
    d.attempt (d.finishSubmission outcome) = d ∨
      d.attempt (d.finishSubmission outcome) = { d with state := outcome } := by
  unfold finishSubmission attempt
  rcases d.transition_cases outcome with h | ⟨e, h⟩
  · exact Or.inr (by rw [h])
  · exact Or.inl (by rw [h])

/-! ### Tasks in the slot -/

/-- The desk with a task in the slot that has not ended. -/
def occupied (d : Desk) (taskId : String) : Desk :=
  { d with
    state := .streaming
    active := some ⟨taskId, d.tickets⟩
    guards := d.guards ++ [⟨d.tickets, false⟩]
    tickets := d.tickets + 1 }

/-- **A task is registered only in a slot without a task.** -/
theorem eq_of_register {d d' : Desk} {taskId : String} {n : Nat}
    (h : d.register taskId = .ok (n, d')) :
    d.active = none ∧ n = d.tickets ∧ d' = d.occupied taskId := by
  unfold register at h
  split at h
  · cases h
  · rename_i hfree
    refine ⟨eq_of_ensureFree hfree, ?_⟩
    rcases d.transition_cases .streaming with ht | ⟨e, ht⟩ <;> rw [ht] at h
    · obtain ⟨rfl, rfl⟩ := Prod.mk.inj (Except.ok.inj h)
      exact ⟨rfl, rfl⟩
    · cases h

/-- With a free slot, a task that was submitted is registered under the next ticket. -/
theorem register_eq {d : Desk} (h : d.active = none) (hs : d.state = .submitting)
    (taskId : String) : d.register taskId = .ok (d.tickets, d.occupied taskId) := by
  have hfree : d.ensureFree = .ok () := by rw [ensureFree, h]
  unfold register
  rw [hfree, transition_streaming hs]
  rfl

/-- The slot of a desk with a task that has not ended. -/
@[simp] theorem slot_occupied (d : Desk) (taskId : String) :
    (d.occupied taskId).slot =
      ⟨.streaming, some ⟨taskId, d.tickets⟩, d.slot.unfinished ++ [d.tickets]⟩ := by
  simp [slot, occupied]

/-- Telling a task to end moves nothing in the slot. -/
@[simp] theorem slot_signalCancel (d : Desk) : d.signalCancel.2.slot = d.slot := by
  unfold signalCancel
  split
  · rfl
  · rename_i a ha
    simp only [slot, ha, List.map_map, Slot.mk.injEq, true_and]
    -- the mark on a guard is no part of its ticket
    refine List.map_congr_left fun g _ ↦ ?_
    simp only [Function.comp_apply]
    split_ifs with hg
    · exact hg.symm
    · rfl

/-- Whoever is told to end is the task in the slot. -/
theorem active_of_signalCancel {d d' : Desk} {ticket : Nat}
    (h : d.signalCancel = (some ticket, d')) :
    ∃ a : ActiveTask, d.active = some a ∧ a.ticket = ticket := by
  unfold signalCancel at h
  split at h
  · cases h
  · rename_i a ha
    exact ⟨a, ha, Option.some.inj (Prod.mk.inj h).1⟩

/-- When there is no task nobody is told. -/
theorem eq_of_signalCancel_none {d d' : Desk} (h : d.signalCancel = (none, d')) :
    d.active = none ∧ d = d' := by
  unfold signalCancel at h
  split at h
  · exact ⟨‹_›, (Prod.mk.inj h).2⟩
  · cases (Prod.mk.inj h).1

/-- Only the mark on a guard changes. -/
theorem signalCancel_eq (d : Desk) :
    d.signalCancel.2 = { d with guards := d.signalCancel.2.guards } := by
  unfold signalCancel
  split <;> rfl

/-- A mark stays. -/
theorem isCancelled_signalCancel {d : Desk} {ticket : Nat} (h : d.isCancelled ticket = true) :
    d.signalCancel.2.isCancelled ticket = true := by
  unfold signalCancel
  split
  · exact h
  · rename_i a ha
    obtain ⟨g, hg, hmark⟩ := List.any_eq_true.1 h
    refine List.any_eq_true.2 ⟨_, List.mem_map_of_mem hg, ?_⟩
    by_cases hticket : g.ticket = a.ticket
    · rw [if_pos hticket]
      simp_all
    · rw [if_neg hticket]
      exact hmark

/-- No other mark is set than that of the task in the slot. -/
theorem active_of_isCancelled_signalCancel {d : Desk} {ticket : Nat}
    (h : d.signalCancel.2.isCancelled ticket = true) :
    d.isCancelled ticket = true ∨ ∃ a, d.active = some a ∧ a.ticket = ticket := by
  unfold signalCancel at h
  split at h
  · exact .inl h
  · rename_i a ha
    obtain ⟨g', hg', hmark⟩ := List.any_eq_true.1 h
    obtain ⟨g, hg, rfl⟩ := List.mem_map.1 hg'
    split_ifs at hmark
    · exact .inr ⟨a, ha, by simpa using hmark⟩
    · exact .inl (List.any_eq_true.2 ⟨g, hg, hmark⟩)

/-- **The task in the slot is marked**, as long as it has not ended. -/
theorem isCancelled_of_active {d : Desk} {a : ActiveTask} (hactive : d.active = some a)
    (hunfinished : a.ticket ∈ d.slot.unfinished) :
    d.signalCancel.2.isCancelled a.ticket = true := by
  obtain ⟨g, hg, hticket⟩ := List.mem_map.1 hunfinished
  unfold signalCancel
  rw [hactive]
  refine List.any_eq_true.2 ⟨_, List.mem_map_of_mem hg, ?_⟩
  rw [if_pos hticket]
  simp

/-- A task has ended when its guard is gone. -/
theorem isClosed_iff {d : Desk} {ticket : Nat} :
    d.isClosed ticket = true ↔ ticket ∉ d.slot.unfinished := by
  simp [isClosed, slot]

/-- A task that was just registered is not marked. -/
theorem isCancelled_occupied {d : Desk} (h : d.slot.unfinished = []) (taskId : String) :
    (d.occupied taskId).isCancelled d.tickets = false := by
  have hguards : d.guards = [] := List.map_eq_nil_iff.1 h
  simp [isCancelled, occupied, hguards]

/-- The end of a task, field by field: the state is the outcome, and its guard is gone. -/
theorem finish_eq (d : Desk) (taskId : String) (ticket : Nat) (running : RunningNodes)
    (outcome : TaskState) :
    d.finish taskId ticket running outcome =
      { d with
        published := d.published ++ running.closingEvents
        state := outcome
        active := if d.activeTaskId? = some taskId then none else d.active
        guards := d.guards.filter fun g ↦ g.ticket ≠ ticket } := by
  unfold finish vacate
  rw [force_eq]
  by_cases h : d.activeTaskId? = some taskId
  · rw [if_pos h, if_pos (show (({ d.publish _ with state := outcome } : Desk)).activeTaskId? = _
      from h)]
    rfl
  · rw [if_neg h, if_neg (show ¬ (({ d.publish _ with state := outcome } : Desk)).activeTaskId? = _
      from h)]
    rfl

/-- **The slot is released by the end of the task that is in it**, if that is the only task. -/
theorem slot_finish {d : Desk} {taskId : String} {ticket : Nat}
    (hactive : d.active = some ⟨taskId, ticket⟩) (hguards : d.slot.unfinished = [ticket])
    (running : RunningNodes) (outcome : TaskState) :
    (d.finish taskId ticket running outcome).slot = ⟨outcome, none, []⟩ := by
  have hid : d.activeTaskId? = some taskId := by rw [activeTaskId?, hactive]; rfl
  have hgone : (d.guards.filter fun g ↦ g.ticket ≠ ticket) = [] := by
    refine List.filter_eq_nil_iff.2 fun g hg ↦ ?_
    have hmem : g.ticket ∈ d.slot.unfinished := List.mem_map_of_mem hg
    rw [hguards, List.mem_singleton] at hmem
    simp [hmem]
  rw [finish_eq, slot, hgone, if_pos hid]
  rfl

end Desk

end GraphSession
