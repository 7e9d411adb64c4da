import GraphSession.Proofs.Task.Ledger

/-!
# What listeners are told

On a desk where tasks follow one another the listeners are told of one task after the other, and of
each task first what its messages say and then, when it ends, what has to be closed
(`events_of_tasks`). So **no node is left running**: while no task is in the slot, no node's last
event is a start.

The invariant behind this is that the monitor of a task holds exactly the nodes for running that all
events so far, those of earlier tasks included, have left running; its last deed closes them, and
does so before the slot is without a task.
-/

namespace GraphSession

namespace TaskCourse

variable {w w' : TaskCourse} {h : TaskHappening} {i : Nat} {m : Monitor}

/-- What has been told agrees with the tasks. -/
structure Audible (w : TaskCourse) : Prop where
  /-- The events are those of the tasks, one task after the other. -/
  published : w.desk.published = (List.range w.desk.tickets).flatMap w.toldBy
  /-- A task that has ended has told of its messages, and closed what they left running. -/
  ended : ∀ t < w.desk.tickets, t ∉ w.desk.slot.unfinished → w.toldBy t =
    Frame.events (w.textsOf t) ++ (RunningNodes.after (Frame.events (w.textsOf t))).closingEvents
  vacant : w.desk.active = none → RunningNodes.after w.desk.published = ∅
  occupied : ∀ i m, w.follower? i = some m → m.running = RunningNodes.after w.desk.published

/-- A deed of the task that was registered last comes last. -/
theorem flatMap_toldBy_concat {e : TaskDeed} {n : Nat} (past : w'.past = w.past ++ [e])
    (latest : e.ticket + 1 = n) :
    (List.range n).flatMap w'.toldBy = (List.range n).flatMap w.toldBy ++ e.told := by
  have earlier : (List.range e.ticket).flatMap w'.toldBy =
      (List.range e.ticket).flatMap w.toldBy := by
    refine List.flatMap_congr fun t ht ↦ ?_
    have hne : e.ticket ≠ t := by
      have := List.mem_range.1 ht
      omega
    rw [toldBy_of_ne past hne]
  rw [← latest, List.range_succ, List.flatMap_append, List.flatMap_append, earlier,
    List.flatMap_singleton, List.flatMap_singleton, toldBy_concat past, if_pos rfl,
    List.append_assoc]

namespace Audible

theorem start (p : Project) (timeout : Nat) : (ofProject p timeout).Audible :=
  ⟨rfl, fun _ ht ↦ absurd ht (Nat.not_lt_zero _), fun _ ↦ rfl,
    fun i m hi ↦ by simp [ofProject, follower?, call?, callAt?] at hi⟩

/-- The monitor of the task in the slot knows which nodes the listeners believe to run. -/
theorem occupied_step (hw : w.Audible) (seating : w.Seating) (hstep : w.Step h w') {j : Nat}
    {m' : Monitor} (hj : w'.follower? j = some m') :
    m'.running = RunningNodes.after w'.desk.published := by
  cases hstep.stems seating hj with
  | enrolled taskId registered free desk =>
    rw [registered, desk]
    exact (hw.vacant free).symm
  | moved before move =>
    rw [move.published, RunningNodes.after_append, move.running, hw.occupied _ _ before]
  | passed before aside => rw [aside.published, hw.occupied _ _ before]

/-- One step leaves what has been told in agreement with the tasks. -/
theorem step (hw : w.Audible) (seating : w.Seating)
    (ledger : ∀ i m, w.follower? i = some m → w.Ledger m) (told : w.toldBy w.desk.tickets = [])
    (hstep : w.Step h w') : w'.Audible := by
  have occupied : ∀ i m, w'.follower? i = some m →
      m.running = RunningNodes.after w'.desk.published :=
    fun _ _ hj ↦ hw.occupied_step seating hstep hj
  cases hstep with
  | enroll taskId free desk followers past =>
    have tickets : w'.desk.tickets = w.desk.tickets + 1 := congrArg Desk.tickets desk
    have htold := toldBy_congr past
    refine ⟨?_, fun t ht hended ↦ ?_, fun hnone ↦ ?_, occupied⟩
    · -- nothing has been told for the ticket that was just given
      rw [tickets, htold, List.range_succ, List.flatMap_append, List.flatMap_singleton, told,
        List.append_nil, ← hw.published, desk]
      rfl
    · -- the new task has not ended, so an ended one was there before
      rw [desk, Desk.slot_occupied, List.mem_append, List.mem_singleton, not_or] at hended
      rw [htold, textsOf_congr past]
      exact hw.ended t (by omega) hended.1
    · rw [desk] at hnone
      cases hnone
  | @move _ i m m' text before move followers past =>
    -- the task that moves is the one in the slot, and the last one registered
    have seated := seating.of_follower? before
    have follows := move.follows
    have active : w'.desk.active = w.desk.active := congrArg Slot.active follows.slot
    refine ⟨?_, fun t ht hended ↦ ?_, fun hnone ↦ ?_, occupied⟩
    · rw [follows.tickets, flatMap_toldBy_concat past seated.latest, ← hw.published, move.published,
        List.drop_left]
    · -- the task that goes on has not ended
      have hne : m.ticket ≠ t := by
        rw [follows.slot, seated.unfinished, List.mem_singleton] at hended
        exact Ne.symm hended
      rw [toldBy_of_ne past hne, textsOf_of_ne past hne]
      exact hw.ended t (follows.tickets ▸ ht) (follows.slot ▸ hended)
    · rw [active, seated.active] at hnone
      cases hnone
  | @leave _ _ i m st caller before leaves followers past =>
    have seated := seating.of_follower? before
    refine ⟨?_, fun t ht _ ↦ ?_, fun _ ↦ ?_, occupied⟩
    · rw [leaves.tickets, flatMap_toldBy_concat past seated.latest, ← hw.published,
        leaves.published]
    · by_cases hticket : m.ticket = t
      · -- its account says that the closing events are all that was missing
        subst hticket
        have standing := ledger i m before
        rw [toldBy_concat past, textsOf_concat past, if_pos rfl, if_pos rfl, Option.toList_none,
          List.append_nil, standing.running, standing.told]
      · rw [toldBy_of_ne past hticket, textsOf_of_ne past hticket]
        refine hw.ended t (leaves.tickets ▸ ht) ?_
        -- any other task had ended before, since only one is unfinished
        rw [seated.unfinished, List.mem_singleton]
        exact Ne.symm hticket
    · -- the closing events stop whatever this task had left running
      rw [leaves.published, RunningNodes.after_append, ← hw.occupied i m before,
        RunningNodes.hearAll_closingEvents]
  | aside aside =>
    have htold := toldBy_congr aside.past
    refine ⟨?_, fun t ht hended ↦ ?_, fun hnone ↦ ?_, occupied⟩
    · rw [aside.published, aside.tickets, htold, hw.published]
    · rw [htold, textsOf_congr aside.past]
      exact hw.ended t (aside.tickets ▸ ht) (aside.unfinished ▸ hended)
    · rw [aside.published]
      exact hw.vacant (aside.active ▸ hnone)

end Audible

/-- After every run what has been told agrees with the tasks. -/
theorem audible_run (p : Project) (timeout : Nat) (hs : List TaskHappening) :
    ((ofProject p timeout).run hs).Audible :=
  run_induction (.start p timeout)
    (fun {hs _ _} ih hstep ↦ ih.step (seating_run p timeout hs) (ledger_run p timeout hs)
      (toldBy_of_tickets_le (Nat.le_refl _)) hstep) hs

/-- What listeners are told of the tasks of a course. -/
structure Tells (w : TaskCourse) : Prop where
  /-- The events are those of the tasks in the order in which they were registered, and no
  others. -/
  published : w.desk.published = (List.range w.desk.tickets).flatMap w.toldBy
  /-- As long as a task has not ended, they are what its messages say. -/
  unfinished : ∀ t ∈ w.desk.slot.unfinished, w.toldBy t = Frame.events (w.textsOf t)
  /-- When it has ended, they are followed by the errors that close what was left running. -/
  ended : ∀ t < w.desk.tickets, t ∉ w.desk.slot.unfinished →
    ∃ closing, w.toldBy t = Frame.events (w.textsOf t) ++ closing ∧
      Closes (Frame.events (w.textsOf t)) closing
  /-- While no task is in the slot, no node was started last. -/
  quiet : w.desk.active = none → ∀ id, lastKind? w.desk.published id ≠ some .start

/-- **Every task tells of its messages and closes what they leave running,** whatever its frames and
however it ends. -/
theorem events_of_tasks (p : Project) (timeout : Nat) (hs : List TaskHappening) :
    ((ofProject p timeout).run hs).Tells := by
  have seating := seating_run p timeout hs
  have ledger := ledger_run p timeout hs
  have audible := audible_run p timeout hs
  generalize (ofProject p timeout).run hs = w at *
  refine ⟨audible.published, fun t ht ↦ ?_, fun t ht hended ↦ ?_, fun hnone id hid ↦ ?_⟩
  · obtain ⟨i, m, hi, rfl⟩ := seating.of_unfinished ht
    exact (ledger i m hi).told
  · exact ⟨_, audible.ended t ht hended, RunningNodes.closes_after _⟩
  · have hmem := RunningNodes.mem_after_iff.2 hid
    rw [audible.vacant hnone] at hmem
    cases hmem

/-- Of two nodes that a task starts one is started again, and the other is stopped. Then the task is
given up, and another one follows. -/
def abandonedTask : List TaskHappening :=
  [.monitor "t", .turn 0] ++
    [("start", "a"), ("start", "b"), ("start", "a"), ("stop", "b")].flatMap (fun (kind, id) ↦
      [.serve (.push 0
        (.text ("\x7b\"timer\":\"" ++ kind ++ "\",\"node_id\":\"" ++ id ++ "\"\x7d"))), .turn 0]) ++
    [.drop 0, .monitor "u"]

example : ((ofProject (.carrying .empty) 1000).run abandonedTask).desk.published =
    [⟨"a", .start⟩, ⟨"b", .start⟩, ⟨"a", .start⟩, ⟨"b", .stop⟩, ⟨"a", .error⟩] := by
  decide +kernel

end TaskCourse

end GraphSession
