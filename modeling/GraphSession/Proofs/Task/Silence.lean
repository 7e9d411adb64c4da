import GraphSession.Proofs.Task.Ledger

/-!
# When a task falls silent

A task that was told to end, and a task whose time is up, does nothing to the project any more and
starts or stops no node (`Silent`), whatever waits in its channel and whatever still comes. Three
facts carry this:

* a mark is never taken off a guard, and a monitor that has told its server stays at throwing frames
  away (`isTold_of_move`);
* the deadline is fixed by the first turn, no turn changes it (`Monitor.Due`), and the clock is
  never put back (`now_le_run`);
* a monitor looks at both before it looks at its channel, so it takes nothing in after either.
-/

namespace GraphSession

namespace Monitor

variable {d d' : Desk} {m m' : Monitor} {text : Option String} {deadline : Nat}

/-- A monitor that was told to end takes nothing in. -/
theorem intake?_of_isTold (h : m.isTold d = true) : m.intake? d = none := by
  refine intake?_eq_none fun _ _ _ _ _ _ _ stage free ↦ ?_
  simp [isTold, isDraining, stage, free] at h

/-- A monitor that was told to end stays told. -/
theorem isTold_of_move (move : Move m d text d' m') (h : m.isTold d = true) :
    m'.isTold d' = true := by
  have follows := move.follows
  rcases Bool.or_eq_true_iff.1 h with hdraining | hcancelled
  · refine Bool.or_eq_true_iff.2 (.inl ?_)
    cases move with
    | linger opening =>
      cases opening with
      | first stage | later stage => simp [isDraining, stage] at hdraining
    | connect opening =>
      cases opening with
      | first stage | later stage => simp [isDraining, stage] at hdraining
    | take stage => simp [isDraining, stage] at hdraining
    | signal => rfl
    | discard => exact hdraining
  · refine Bool.or_eq_true_iff.2 (.inr ?_)
    rw [follows.isCancelled, follows.ticket]
    exact hcancelled

/-- The deadline that a monitor has fixed, as long as it may take in texts. -/
def deadline? (m : Monitor) : Option Nat :=
  match m.stage with
  | .opening deadline | .streaming deadline _ _ _ => some deadline
  | .registered | .draining _ _ => none

/-- A monitor has had its first turn, and has no other deadline than this. -/
structure Due (m : Monitor) (deadline : Nat) : Prop where
  polled : m.stage ≠ .registered
  fixed : ∀ k, m.deadline? = some k → k = deadline

/-- **The time counts from the first turn.** -/
theorem due_of_first (move : Move m d text d' m') (h : m.stage = .registered) :
    m'.Due (d.now + d.timeout) := by
  have first : ∀ {k}, m.IsOpening d k → k = d.now + d.timeout := by
    rintro k (_ | stage)
    · rfl
    · rw [h] at stage
      cases stage
  cases move with
  | linger opening => exact ⟨nofun, fun k hk ↦ (Option.some.inj hk).symm.trans (first opening)⟩
  | connect opening => exact ⟨nofun, fun k hk ↦ (Option.some.inj hk).symm.trans (first opening)⟩
  | take stage => simp [h] at stage
  | signal stage => simp [h] at stage
  | discard stage => simp [h] at stage

/-- The first turn does not wait: if the channel does not open at once the monitor goes on to wait
for it. -/
theorem turn_ne_waits (h : m.stage = .registered) : m.turn d ≠ .waits := by
  rw [turn, h]
  simp only [turnRegistered]
  split
  · nofun
  · assumption

/-- **And is not renewed.** -/
theorem Due.move (h : m.Due deadline) (move : Move m d text d' m') : m'.Due deadline := by
  have later : ∀ {k}, m.IsOpening d k → k = deadline := by
    rintro k (stage | stage)
    · exact absurd stage h.polled
    · exact h.fixed k (by rw [deadline?, stage])
  cases move with
  | linger opening => exact ⟨nofun, fun k hk ↦ (Option.some.inj hk).symm.trans (later opening)⟩
  | connect opening => exact ⟨nofun, fun k hk ↦ (Option.some.inj hk).symm.trans (later opening)⟩
  | take stage => exact ⟨nofun, fun k hk ↦ h.fixed k (by rw [deadline?, stage]; exact hk)⟩
  | signal => exact ⟨nofun, nofun⟩
  | discard => exact h

/-- A monitor whose time is up takes nothing in. -/
theorem Due.intake? (h : m.Due deadline) (time : deadline ≤ d.now) : m.intake? d = none := by
  refine intake?_eq_none fun k _ _ _ _ _ _ stage _ time' ↦ ?_
  have hk := h.fixed k (by rw [deadline?, stage])
  omega

end Monitor

namespace TaskCourse

variable {w w' : TaskCourse} {h : TaskHappening} {i j t : Nat} {m m' : Monitor}

/-! ### Silence -/

/-- Whatever happens next to the monitor of a task leaves the project, and tells the listeners of
errors only. -/
def Silent (w : TaskCourse) (t : Nat) : Prop :=
  ∀ i m, w.follower? i = some m → m.ticket = t → ∀ h, h.caller? = some i →
    (w.step h).desk.project = w.desk.project ∧
      ∃ closing, (w.step h).desk.published = w.desk.published ++ closing ∧
        ∀ e ∈ closing, e.kind = .error

/-- A task is silent while its monitor takes nothing in. -/
theorem silent_of_intake? (hw : ∀ i m, w.follower? i = some m → m.ticket = t →
    m.intake? w.desk = none) : w.Silent t := by
  intro i m hi ht h hcaller
  have hstep := step_cases w h
  generalize w.step h = w' at hstep
  cases hstep with
  | enroll => cases hcaller
  | move before move =>
    obtain rfl := Option.some.inj hcaller
    obtain rfl := Option.some.inj (hi.symm.trans before)
    obtain rfl := (hw _ _ hi ht).symm.trans move.intake?_eq
    exact ⟨move.follows.project, [], by rw [move.published]; rfl, nofun⟩
  | leave caller before leaves =>
    exact ⟨leaves.project, _, leaves.published, fun _ ↦ RunningNodes.kind_of_mem_closingEvents⟩
  | aside aside =>
    refine ⟨aside.project ?_, [], by rw [aside.published, List.append_nil], nofun⟩
    cases h with
    | write => cases hcaller
    | _ => rfl

/-! ### What is true of a task from some time on -/

/-- A task was registered, and its monitor, as long as there is one, has a property. -/
structure Of (w : TaskCourse) (t : Nat) (Q : Monitor → Desk → Prop) : Prop where
  registered : t < w.desk.tickets
  monitor : ∀ i m, w.follower? i = some m → m.ticket = t → Q m w.desk

/-- What a monitor keeps on its turns, and while it is passed by. -/
structure Lasting (Q : Monitor → Desk → Prop) : Prop where
  moves : ∀ {m m' d d' text}, Monitor.Move m d text d' m' → Q m d → Q m' d'
  passes : ∀ {m w w' h}, Aside w h w' → Q m w.desk → Q m w'.desk

/-- What monitors keep is kept by the monitor of a task on every step. -/
theorem Of.step {Q : Monitor → Desk → Prop} (hQ : Lasting Q) (hw : w.Of t Q) (seating : w.Seating)
    (hstep : w.Step h w') : w'.Of t Q := by
  have lt := hw.registered
  refine ⟨Nat.lt_of_lt_of_le lt hstep.tickets_le, fun j m' hj ht ↦ ?_⟩
  cases hstep.stems seating hj with
  | enrolled taskId registered =>
    rw [registered] at ht
    exact absurd ht (Nat.ne_of_gt lt)
  | moved before move =>
    exact hQ.moves move (hw.monitor _ _ before (move.follows.ticket.symm.trans ht))
  | passed before aside => exact hQ.passes aside (hw.monitor _ _ before ht)

/-- What monitors keep holds of the monitor of a task ever after. -/
theorem Of.later {Q : Monitor → Desk → Prop} (hQ : Lasting Q) {p : Project} {timeout : Nat}
    {before : List TaskHappening} (hstart : (((ofProject p timeout).run before).step h).Of t Q)
    (hs : List TaskHappening) : ((ofProject p timeout).run (before ++ h :: hs)).Of t Q :=
  later_induction (P := fun w ↦ w.Of t Q) hstart
    (fun {hs _ _} ih hstep ↦ ih.step hQ (seating_run p timeout hs) hstep) hs

/-- Who was told to end remains told. -/
theorem lasting_isTold : Lasting fun m d ↦ m.isTold d = true where
  moves := Monitor.isTold_of_move
  passes aside h := by
    rcases Bool.or_eq_true_iff.1 h with hdraining | hcancelled
    · exact Bool.or_eq_true_iff.2 (.inl hdraining)
    · exact Bool.or_eq_true_iff.2 (.inr (aside.marked _ hcancelled))

/-- A deadline that is fixed remains fixed. -/
theorem lasting_due (deadline : Nat) : Lasting fun m _ ↦ m.Due deadline where
  moves move h := h.move move
  passes _ h := h

/-! ### Tasks that are told to end -/

/-- A cancellation marks the task in the slot, and waits for it from then on. -/
theorem step_of_callsOff (hcalls : w.CallsOff (.turn j) t) :
    (w.step (.turn j)).desk = w.desk.signalCancel.2 ∧
      (w.step (.turn j)).call? j = some (.awaitEnd t) ∧
        ∃ a, w.desk.active = some a ∧ a.ticket = t := by
  obtain ⟨i, a, hturn, hc, hactive, rfl⟩ := hcalls
  obtain rfl := TaskHappening.turn.inj hturn
  have hsignal : w.desk.signalCancel = (some a.ticket, w.desk.signalCancel.2) := by
    rw [Desk.signalCancel, hactive]
  have hstep : w.step (.turn j) =
      w.proceed j .cancel w.desk.signalCancel.2 (some (.awaitEnd a.ticket)) none := by
    rw [step, onCall, hc]
    show w.takeTurn j .cancel = _
    rw [takeTurn, TaskCall.turn, hsignal]
    rfl
  rw [hstep]
  refine ⟨rfl, ?_, a, hactive, rfl⟩
  rw [call?_proceed hc, Function.update_self]

/-- A task that is called off has been told to end. -/
theorem told_of_callsOff (seating : w.Seating) (hcalls : w.CallsOff h t) :
    (w.step h).Of t fun m d ↦ m.isTold d = true := by
  obtain ⟨j, -, rfl, -⟩ := id hcalls
  obtain ⟨hdesk, -, a, hactive, rfl⟩ := step_of_callsOff hcalls
  obtain ⟨i, m, hi, rfl⟩ := seating.of_active hactive
  have seated := seating.of_follower? hi
  refine ⟨?_, fun k m' _ ht ↦ ?_⟩
  · rw [hdesk, w.desk.signalCancel_eq]
    exact seated.ticket_lt
  · refine Bool.or_eq_true_iff.2 (.inr ?_)
    rw [hdesk, ht]
    refine Desk.isCancelled_of_active hactive ?_
    rw [seated.unfinished]
    exact List.mem_singleton_self _

/-! ### Tasks whose time is up -/

/-- **The clock is never put back.** -/
theorem now_le_run (w : TaskCourse) (hs : List TaskHappening) :
    w.desk.now ≤ (w.run hs).desk.now := by
  refine run_induction (P := fun w' ↦ w.desk.now ≤ w'.desk.now) (Nat.le_refl _)
    (fun {_ _ w'} ih hstep ↦ ?_) hs
  cases hstep with
  | enroll taskId free desk =>
    rw [desk]
    exact ih
  | move before move => exact move.now ▸ ih
  | leave caller before leaves => exact leaves.now ▸ ih
  | aside aside => exact Nat.le_trans ih aside.now

/-- The first turn fixes the deadline. -/
theorem due_of_registered (seating : w.Seating) (hi : w.follower? i = some m)
    (hstage : m.stage = .registered) :
    (w.step (.turn i)).Of m.ticket fun m' _ ↦ m'.Due (w.desk.now + w.desk.timeout) := by
  have seated := seating.of_follower? hi
  refine ⟨Nat.lt_of_lt_of_le seated.ticket_lt (step_cases w _).tickets_le, fun j m' hj _ ↦ ?_⟩
  have hc := call?_of_follower? hi
  cases ht : m.turn w.desk with
  | waits => exact absurd ht (Monitor.turn_ne_waits hstage)
  | moves d m₁ =>
    rw [step_of_moves hi ht] at hj
    obtain ⟨-, hm⟩ := seated.eq_of_update (follower?_of_update (call?_proceed hc _ _ _)) hj
    obtain rfl := Option.some.inj hm
    exact Monitor.due_of_first (Monitor.move_of_turn ht) hstage
  | ends d o =>
    rw [step_of_ends hi ht] at hj
    obtain ⟨-, hnone⟩ := seated.eq_of_update (follower?_of_update (call?_proceed hc _ _ _)) hj
    cases hnone

end TaskCourse

end GraphSession
