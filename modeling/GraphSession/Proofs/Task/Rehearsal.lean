import GraphSession.Proofs.Schedule.Flights
import GraphSession.Proofs.Task.Course
import GraphSession.Rehearsal.Task

/-!
# What is rehearsed on a desk is a course

Calls that are rehearsed on a desk take turns in a flight, which decides who goes next. Courses know
every order, so the one that the flight has chosen is among them: a course that shows a flight,
which has the same desk and the same calls under the same numbers (`TaskCourse.Shows`), shows it
again after the turns that the flight takes, one happening for each (`TaskCourse.Shows.next`,
`TaskCourse.Shows.run`). What holds of all courses therefore holds of everything that can be
rehearsed.

Between the turns calls are made or given up and the desk is changed from outside. Each of these is
one happening as well, so after any cues (`TaskCue`) the desk is one that a course comes to
(`TaskCourse.exists_rehearsed`).
-/

namespace GraphSession

namespace TaskCourse

/-- The course and the flight have the same desk, and the same calls under the same numbers. -/
structure Shows (w : TaskCourse) (f : Flight Desk TaskCall TaskResult) : Prop where
  desk : w.desk = f.shared
  calls : w.call? = f.call?
  made : w.calls.length = f.made.length
  numbered : f.Numbered

variable {w : TaskCourse} {f f' : Flight Desk TaskCall TaskResult}

theorem shows_start (p : Project) (timeout : Nat) :
    (ofProject p timeout).Shows (.start (.start p timeout)) :=
  ⟨rfl, rfl, rfl, Flight.numbered_start _⟩

namespace Shows

/-! ### Turns -/

/-- A call goes on, or returns, on its turn. -/
theorem proceed (hw : w.Shows f) {i : Nat} {c : TaskCall} (hc : w.call? i = some c)
    {c' : Option TaskCall} {text : Option String}
    (hcalls : f'.call? = Function.update f.call? i c') (hmade : f'.made = f.made)
    (hf' : f'.Numbered) : (w.proceed i c f'.shared c' text).Shows f' where
  desk := rfl
  calls := by rw [call?_proceed hc, hw.calls, hcalls]
  made := by rw [hmade, ← hw.made, TaskCourse.proceed, List.length_set]
  numbered := hf'

/-- **One turn of a flight** is the turn of one call, or nothing that a course would notice. -/
theorem next (hw : w.Shows f) (hnext : f.next? TaskCall.machine = some f') :
    w.Shows f' ∨ ∃ i, (w.step (.turn i)).Shows f' := by
  have hmade := Flight.made_of_next? hnext
  have hnumbered := hw.numbered.of_next? hnext
  cases Flight.step_of_next? hnext with
  | idle shared calls _ =>
    exact .inl ⟨hw.desk.trans shared.symm, hw.calls.trans calls.symm, hmade ▸ hw.made, hnumbered⟩
  | moves i c c' before turn calls _ =>
    have hc : w.call? i = some c := (congrFun hw.calls i).trans before
    have hturn : c.turn w.desk = .moves f'.shared c' := hw.desk ▸ turn
    have hstep : w.step (.turn i) = w.proceed i c f'.shared (some c') (c.intake? w.desk) := by
      rw [step, onCall, hc]
      simp only [takeTurn, hturn]
    exact .inr ⟨i, hstep ▸ hw.proceed hc calls hmade hnumbered⟩
  | ends i c label r before turn calls _ =>
    have hc : w.call? i = some c := (congrFun hw.calls i).trans before
    have hturn : c.turn w.desk = .ends f'.shared r := hw.desk ▸ turn
    have hstep : w.step (.turn i) = w.proceed i c f'.shared none (c.intake? w.desk) := by
      rw [step, onCall, hc]
      simp only [takeTurn, hturn]
    exact .inr ⟨i, hstep ▸ hw.proceed hc calls hmade hnumbered⟩

/-- **However many turns a flight takes,** they are turns of a course. -/
theorem run (hw : w.Shows f) (n : Nat) :
    ∃ turns : List Nat, (w.run (turns.map .turn)).Shows (f.run TaskCall.machine n) := by
  refine Flight.run_of_step (P := fun f ↦ ∃ turns : List Nat, (w.run (turns.map .turn)).Shows f)
    (fun f f' ⟨turns, hturns⟩ hnext ↦ ?_) n ⟨[], hw⟩
  rcases hturns.next hnext with hsame | ⟨i, hstep⟩
  · exact ⟨turns, hsame⟩
  · refine ⟨turns ++ [i], ?_⟩
    rw [List.map_append, List.map_singleton, run_concat]
    exact hstep

/-- Who comes into the queue makes no difference to a course. -/
theorem settle (hw : w.Shows f) (n : Nat) :
    ∃ turns : List Nat, (w.run (turns.map .turn)).Shows (f.settle TaskCall.machine n) := by
  have hroused : w.Shows (f.rouse TaskCall.machine) :=
    ⟨hw.desk, hw.calls, hw.made, hw.numbered.of_sublist (List.Sublist.refl _) rfl⟩
  exact hroused.run n

/-! ### Between the turns -/

/-- The desk is changed from outside of all calls. -/
theorem change (hw : w.Shows f) (h : TaskHappening) (g : Desk → Desk)
    (hdesk : (w.step h).desk = g w.desk) (hcalls : (w.step h).calls = w.calls) :
    (w.step h).Shows (f.change g) where
  desk := hdesk.trans (congrArg g hw.desk)
  calls := (congrArg callAt? hcalls).trans hw.calls
  made := hcalls ▸ hw.made
  numbered := hw.numbered.of_sublist (List.Sublist.refl _) rfl

/-- A call is made. -/
theorem launch (hw : w.Shows f) (d : Desk) (label : String) (c : TaskCall) :
    (w.launch d c).Shows ((f.change fun _ ↦ d).launch label c) := by
  have hnumbered : (f.change fun _ ↦ d).Numbered :=
    hw.numbered.of_sublist (List.Sublist.refl _) rfl
  refine ⟨rfl, ?_, ?_, hnumbered.launch label c⟩
  · rw [call?_launch, hnumbered.call?_launch, hw.calls, hw.made]
    rfl
  · have hlength : (f.made ++ [label]).length = f.made.length + 1 := List.length_append
    rw [TaskCourse.launch, List.length_append, hw.made]
    exact hlength.symm

/-- A call is given up. -/
theorem giveUp (hw : w.Shows f) (label : String) :
    w.Shows (f.giveUp TaskCall.machine label).2 ∨
      ∃ i, (w.step (.drop i)).Shows (f.giveUp TaskCall.machine label).2 := by
  rcases hw.numbered.giveUp TaskCall.machine label with hnobody | ⟨i, c, before, -, hshared, hrest⟩
  · exact .inl (hnobody ▸ hw)
  · obtain ⟨calls, hmade, hnumbered⟩ := hrest
    have hc : w.call? i = some c := (congrFun hw.calls i).trans before
    have hdesk : (f.giveUp TaskCall.machine label).2.shared = c.abandon w.desk :=
      hw.desk ▸ hshared
    refine .inr ⟨i, ?_⟩
    rw [step, onCall, hc]
    show (w.proceed i c (c.abandon w.desk) none none).Shows _
    rw [← hdesk]
    exact hw.proceed hc calls hmade hnumbered

end Shows

end TaskCourse

/-! ### Whole rehearsals -/

/-- What can be rehearsed. -/
inductive TaskCue where
  | begin
  | settle (outcome : TaskState)
  | monitor (label taskId : String)
  | cancel (label : String)
  | giveUp (label : String)
  | serve (m : ServerMove)
  | write (p : Project)
  | wait (ms : Nat)
  /-- The calls take turns until each has to wait. -/
  | rest

namespace TaskCue

/-- What a cue makes of a rehearsal. -/
def play (r : TaskRehearsal) : TaskCue → TaskRehearsal
  | begin => r.onDesk fun d ↦ d.attempt d.beginSubmission
  | settle outcome => r.onDesk fun d ↦ d.attempt (d.finishSubmission outcome)
  | monitor label taskId => r.follow label taskId
  | cancel label => r.cancel label
  | giveUp label => (r.giveUp label).2
  | serve m => r.onDesk fun d ↦ d.onConnector m.play
  | write p => r.onDesk fun d ↦ { d with project := p }
  | wait ms => r.onDesk fun d ↦ d.advance ms
  | rest => r.settle

end TaskCue

namespace TaskCourse

variable {w : TaskCourse} {r : TaskRehearsal}

/-- **One cue** is some happenings of a course. -/
theorem Shows.play (hw : w.Shows r.flight) (cue : TaskCue) :
    ∃ hs, (w.run hs).Shows (cue.play r).flight := by
  cases cue with
  | begin =>
    exact ⟨[.begin], hw.change .begin (fun d ↦ d.attempt d.beginSubmission) rfl rfl⟩
  | settle outcome =>
    exact ⟨[.settle outcome],
      hw.change (.settle outcome) (fun d ↦ d.attempt (d.finishSubmission outcome)) rfl rfl⟩
  | serve m => exact ⟨[.serve m], hw.change (.serve m) (fun d ↦ d.onConnector m.play) rfl rfl⟩
  | write p => exact ⟨[.write p], hw.change (.write p) (fun d ↦ { d with project := p }) rfl rfl⟩
  | wait ms => exact ⟨[.wait ms], hw.change (.wait ms) (fun d ↦ d.advance ms) rfl rfl⟩
  | monitor label taskId =>
    have hmade := hw.launch (TaskCall.monitor w.desk taskId).2 label
      (TaskCall.monitor w.desk taskId).1
    rw [hw.desk] at hmade
    refine ⟨[.monitor taskId], ?_⟩
    show (w.launch (TaskCall.monitor w.desk taskId).2 (TaskCall.monitor w.desk taskId).1).Shows _
    rw [hw.desk]
    exact hmade
  | cancel label =>
    have hmade := hw.launch w.desk label .cancel
    rw [show (r.flight.change fun _ ↦ w.desk) = r.flight from hw.desk ▸ rfl] at hmade
    exact ⟨[.cancel], hmade⟩
  | giveUp label =>
    rcases hw.giveUp label with hnobody | ⟨i, hgone⟩
    · exact ⟨[], hnobody⟩
    · exact ⟨[.drop i], hgone⟩
  | rest =>
    obtain ⟨turns, hturns⟩ := hw.settle r.turnsLeft
    exact ⟨_, hturns⟩

/-- **Whatever is rehearsed is a course:** after any cues there is one that has the same desk, and
the same calls in flight. -/
theorem exists_rehearsed (p : Project) (timeout : Nat) (cues : List TaskCue) :
    ∃ hs, ((ofProject p timeout).run hs).Shows
      (cues.foldl TaskCue.play (.start p timeout)).flight := by
  induction cues using List.reverseRecOn with
  | nil => exact ⟨[], shows_start p timeout⟩
  | append_singleton cues cue ih =>
    obtain ⟨hs, hw⟩ := ih
    obtain ⟨hs', hw'⟩ := hw.play cue
    refine ⟨hs ++ hs', ?_⟩
    rw [run_append, List.foldl_concat]
    exact hw'

end TaskCourse

end GraphSession
