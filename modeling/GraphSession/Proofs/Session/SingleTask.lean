import GraphSession.Proofs.Session.Seat

/-!
# One task at a time

Whatever the order of syncs and cancellations, answers and frames, and whoever is given up on the
way: no two tasks are unfinished at once, and a frame goes into the project only if it is one of the
task that the last submission has started (`patches_of_own_task`). So a late frame of an older task
never reaches the project of a newer sync.
-/

namespace GraphSession

namespace SyncStage

variable {s s' : Session} {stage : SyncStage} {next : Option SyncStage}

/-- A text is taken in by a sync that follows a task, and by its monitor. -/
theorem Change.of_took {k : Nat} {text : String}
    (h : Change s stage s' next (some (.took k text))) :
    ∃ g m, stage = .following g m ∧ m.ticket = k ∧ m.intake? s.desk = some text := by
  cases h with
  | take g m m' d text intake follows => exact ⟨g, m, rfl, rfl, intake⟩

end SyncStage

namespace Course

open SyncStage (opening descent)

/-- When a sync may take a text in: the last submission is its own; it was answered with a task,
which the sync follows; and the text is the first that waits in a channel of this task, which was
opened since the sync follows it. -/
structure Rightful (w : Course) (i k : Nat) (text : String) : Prop where
  last : lastSubmitter? w.past = some i
  own : ∃ t a g clock p id first, ∃ texts : List String,
    w.actsOf i = opening p.workflow t a g clock p ++ descent k id first ++ texts.map (.took k) ∧
      ∃ n ch rest, first ≤ n ∧ w.session.desk.connector.channel? n = some ch ∧ ch.taskId = id ∧
        ch.toClient = .text text :: rest

variable {w w' : Course} {h : Happening}

/-- A text is taken in by the rightful sync only. -/
theorem Step.rightful (hstep : Step w h w') (hr : w.Recorded) (ht : w.Tuned) (hu : w.Underway)
    {i k : Nat} {text : String} (hdeed : w'.past = w.past ++ [⟨i, .took k text⟩]) :
    w.Rightful i k text := by
  obtain ⟨stage, next, hi, -, change⟩ := hstep.of_deed hdeed
  obtain ⟨g, m, rfl, rfl, hintake⟩ := change.of_took
  refine ⟨hu i _ hi rfl, ?_⟩
  have hrecord := hr.record hi
  generalize hacts : w.actsOf i = acts at hrecord
  cases hrecord with
  | following t g a clock p m first texts =>
    have hfollowed : ⟨i, .followed m.ticket m.taskId first⟩ ∈ w.past := by
      rw [← mem_actsOf, hacts]
      simp [descent]
    exact ⟨t, a, g, clock, p, m.taskId, first, texts, rfl,
      Monitor.channel?_of_intake? (ht i g m _ _ first hi hfollowed) hintake⟩

/-- Where the slot is for the one who follows a task, at most one task is unfinished. -/
theorem Seated.guards_length_le_one (hw : w.Seated) : w.session.desk.guards.length ≤ 1 := by
  have hlength : w.session.desk.guards.length = w.session.desk.slot.unfinished.length :=
    (List.length_map TaskGuard.ticket).symm
  rw [hlength]
  -- whoever has the seat has the only task, and without him there is none
  by_cases hnone : ∀ i, w.seatOf i = none
  · rw [(hw.vacant hnone).2]
    exact Nat.zero_le 1
  · obtain ⟨i, hi⟩ := not_forall.1 hnone
    obtain ⟨a, ha⟩ := Option.ne_none_iff_exists'.1 hi
    rw [(hw.seated ha).2]
    exact Nat.le_refl 1

/-- The project changes by the deeds of the syncs only, as long as nobody else writes to it. -/
theorem Step.project (hstep : Step w h w') (hwrite : h.isWrite = false) :
    w'.session.project = w.session.project ∨ ∃ i a, w'.past = w.past ++ [⟨i, a⟩] ∧
      w'.session.project = a.rewrite w.session.project := by
  cases hstep with
  | enter session => exact .inl (by rw [session])
  | @change _ _ i stage next a caller before change stages calls past =>
    cases a with
    | none => exact .inl change.project
    | some a => exact .inr ⟨i, a, past, change.project⟩
  | aside session => exact .inl (session.project hwrite)

/-- What holds at any moment, and of whatever happens next. -/
structure SingleTask (w : Course) (h : Happening) : Prop where
  /-- No two tasks are unfinished. -/
  unfinished : w.session.desk.guards.length ≤ 1
  /-- No two syncs follow a task. -/
  alone : ∀ i j g g' m m', w.stage? i = some (.following g m) →
    w.stage? j = some (.following g' m') → i = j
  /-- The project changes by what the syncs do, unless somebody else writes to it: one of them puts
  in a snapshot, or the answer of the backend, or applies the patches of a frame. -/
  project : h.isWrite = false → (w.step h).session.project = w.session.project ∨
    ∃ i a, (w.step h).past = w.past ++ [⟨i, a⟩] ∧
      (w.step h).session.project = a.rewrite w.session.project
  /-- A frame is applied only by the sync that has submitted last, and comes from its own task. -/
  rightful : ∀ i k text, (w.step h).past = w.past ++ [⟨i, .took k text⟩] → w.Rightful i k text

/-- **One task at a time, and every frame to its own sync.** -/
theorem patches_of_own_task (settings : Settings) (p : Project) (clock : Moment)
    (hs : List Happening) (h : Happening) :
    SingleTask ((ofProject settings p clock).run hs) h := by
  have hstep := step_run settings p clock hs h
  have hseated := seated_run settings p clock hs
  refine ⟨hseated.guards_length_le_one, fun i j g g' m m' hi hj ↦ ?_, hstep.project,
    fun i k text hdeed ↦ ?_⟩
  · exact hseated.alone (seatOf_of_following hi) (seatOf_of_following hj)
  · exact hstep.rightful (recorded_run settings p clock hs) (tuned_run settings p clock hs)
      (underway_run settings p clock hs) hdeed

/-- The backend starts a task. -/
def taskAnswer (id : String) : (r : Request) → Except Failure r.Answer
  | .submission _ => .ok (.task id)
  | .thumbnail => .ok none
  | _ => .error .serialization

/-- A sync follows a task, and a frame waits in the channel of the task. -/
def followingCourse : Course :=
  (ofProject .default (.carrying .empty) default).run
    [.sync, .turn 0, .answer 0 (taskAnswer "t"), .turn 0, .turn 0, .turn 0,
      .answer 0 (taskAnswer "t"), .turn 0, .turn 0,
      .serve (.push 0 (.text
        "\x7b\"patch\":[\x7b\"key\":[\"workflow\",\"error\"],\"value\":\"late\"\x7d]\x7d"))]

/-- On the next turn the frame is in the project. -/
example : (followingCourse.step (.turn 0)).session.project.workflow.error = some "late" := by
  decide +kernel

end Course

end GraphSession
