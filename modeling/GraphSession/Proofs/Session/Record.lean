import GraphSession.Proofs.Session.Course

/-!
# What a sync has done

The place a sync has got to says what it has done (`SyncStage.Record`): in which order, and with
what. A sync that waits for the lock has a snapshot and a ticket; one that follows a task has
submitted its own snapshot, was answered with that task, and has taken in some of its frames since.

* `Record.step`: a change of a sync adds to its record what the change tells.
* `Course.Recorded`: in a course, what a sync in flight has done is its record. Nothing is told of
  calls that were not made yet.
-/

namespace GraphSession

namespace SyncStage

/-- What a sync does until it submits. -/
def opening (w : Workflow) (t : Nat) (a : Except Failure (Option String)) (g : Nat) (clock : Moment)
    (p : Project) : List Act :=
  [.serialized w, .captured t a, .began g clock, .submitted t p]

/-- What a sync does until it follows a task. -/
def descent (k : Nat) (id : String) (n : Nat) : List Act :=
  [.replied (.ok (.task id)), .followed k id n]

/-- What a sync has done that has got to a place. -/
inductive Record : SyncStage → List Act → Prop
  | called : Record .called []
  | capturing (w : Workflow) : Record (.capturing w) [.serialized w]
  | captured (w : Workflow) (a : Except Failure (Option String)) :
      Record (.captured w a) [.serialized w]
  | queued (t : Nat) (w : Workflow) (a : Except Failure (Option String)) :
      Record (.queued t w (pictureOf a)) [.serialized w, .captured t a]
  | stopping (t g : Nat) (w : Workflow) (a : Except Failure (Option String)) (clock : Moment)
      (before : Option Nat) :
      Record (.stopping t g w (pictureOf a) before)
        [.serialized w, .captured t a, .began g clock]
  | submitting (t g : Nat) (a : Except Failure (Option String)) (clock : Moment) (p : Project) :
      Record (.submitting t g p) (opening p.workflow t a g clock p)
  | answered (t g : Nat) (a : Except Failure (Option String)) (clock : Moment) (p : Project)
      (r : Except Failure SubmitReply) :
      Record (.answered t g r) (opening p.workflow t a g clock p ++ [.replied r])
  | following (t g : Nat) (a : Except Failure (Option String)) (clock : Moment) (p : Project)
      (m : Monitor) (n : Nat) (texts : List String) :
      Record (.following g m) (opening p.workflow t a g clock p ++ descent m.ticket m.taskId n ++
        texts.map (.took m.ticket))
  | ended (t t' g : Nat) (a : Except Failure (Option String)) (clock : Moment) (p : Project)
      (k : Nat) (id : String) (n : Nat) (texts : List String) (o : Monitor.Outcome) :
      Record (.returning t' g (some o)) (opening p.workflow t a g clock p ++ descent k id n ++
        texts.map (.took k) ++ [.ended o])
  | finished (t t' g : Nat) (a : Except Failure (Option String)) (clock : Moment) (p q : Project) :
      Record (.returning t' g none)
        (opening p.workflow t a g clock p ++ [.replied (.ok (.done q)), .finished q])
  /-- The task could not be followed. -/
  | unfollowed (t t' g : Nat) (a : Except Failure (Option String)) (clock : Moment) (p : Project)
      (id : String) (e : Failure) :
      Record (.returning t' g (some (.error e)))
        (opening p.workflow t a g clock p ++ [.replied (.ok (.task id))])

variable {s s' : Session} {stage stage' : SyncStage} {act : Option Act} {acts : List Act}

/-- **A change adds to the record what it tells.** -/
theorem Record.step (h : Record stage acts) (change : Change s stage s' (some stage') act) :
    Record stage' (acts ++ act.toList) := by
  cases change with
  | serialize =>
    cases h
    exact .capturing _
  | picture w a =>
    cases h
    exact .captured w a
  | queue w a =>
    cases h
    exact .queued _ w a
  | begin t w pic held =>
    cases h
    exact .stopping _ _ _ _ _ _
  | submit t g w pic before d free =>
    cases h
    exact .submitting t g _ _ (snapshot d.project w _)
  | reply t g p r =>
    cases h
    exact .answered t g _ _ p r
  | finish t g p s' released =>
    cases h
    rw [List.append_assoc]
    exact .finished t _ g _ _ _ p
  | follow t g id m d registered =>
    obtain ⟨-, rfl, -⟩ := Monitor.eq_of_register registered
    cases h with
    | answered t g a clock p r =>
      have hrecord := Record.following t g a clock p (.registered id s.desk.tickets)
        s.desk.connector.taskIds.length []
      simpa [descent, Monitor.registered] using hrecord
  | unfollow t g id e taken =>
    cases h
    rw [Option.toList_none, List.append_nil]
    exact .unfollowed t _ g _ _ _ id e
  | take g m m' d text intake follows =>
    cases h with
    | following t g a clock p m n texts =>
      -- the monitor stays the one of its task
      have hrecord := Record.following t g a clock p m' n (texts ++ [text])
      rw [follows.ticket, follows.taskId] at hrecord
      simpa using hrecord
  | pass g m m' d follows =>
    cases h with
    | following t g a clock p m n texts =>
      have hrecord := Record.following t g a clock p m' n texts
      rw [follows.ticket, follows.taskId] at hrecord
      simpa using hrecord
  | comeBack g m d o finishes =>
    cases h with
    | following t g a clock p m n texts => exact .ended t _ g a clock p _ _ n texts o

/-- A sync that comes back got its picture, or was told that there is none. -/
theorem Record.exists_captured {t g : Nat} {o : Option Monitor.Outcome}
    (h : Record (.returning t g o) acts) : ∃ t a, .captured t a ∈ acts := by
  cases h with
  | ended t _ _ a => exact ⟨t, a, by simp [opening]⟩
  | finished t _ _ a => exact ⟨t, a, by simp [opening]⟩
  | unfollowed t _ _ a => exact ⟨t, a, by simp [opening]⟩

end SyncStage

namespace Course

/-- What a call has done, in the order it was done. -/
def actsOf (w : Course) (i : Nat) : List Act :=
  (w.past.filter fun d ↦ d.caller = i).map Deed.act

variable {w w' : Course} {h : Happening} {i j : Nat} {a : Option Act}

/-- The acts of a call are its deeds in the past. -/
@[simp] theorem mem_actsOf {act : Act} : act ∈ w.actsOf i ↔ ⟨i, act⟩ ∈ w.past := by
  simp only [actsOf, List.mem_map, List.mem_filter, decide_eq_true_eq]
  constructor
  · rintro ⟨⟨c, x⟩, ⟨hmem, hc⟩, hx⟩
    exact hc ▸ hx ▸ hmem
  · exact fun hmem ↦ ⟨⟨i, act⟩, ⟨hmem, rfl⟩, rfl⟩

/-- A deed is added to the acts of its caller. -/
theorem actsOf_self (past : w'.past = w.past ++ a.toList.map (Deed.mk i)) :
    w'.actsOf i = w.actsOf i ++ a.toList := by
  rw [actsOf, past, List.filter_append, List.map_append]
  cases a <;> simp [actsOf]

/-- A deed is nothing to the acts of others. -/
theorem actsOf_of_ne (past : w'.past = w.past ++ a.toList.map (Deed.mk i)) (hj : j ≠ i) :
    w'.actsOf j = w.actsOf j := by
  rw [actsOf, past, List.filter_append, List.map_append]
  cases a <;> simp [actsOf, hj.symm]

theorem actsOf_congr (past : w'.past = w.past) : w'.actsOf i = w.actsOf i := by
  rw [actsOf, past, actsOf]

/-- What a sync in flight has done is its record, and nothing is told of calls that were not
made. -/
structure Recorded (w : Course) : Prop where
  record : ∀ {i stage}, w.stage? i = some stage → stage.Record (w.actsOf i)
  made : ∀ d ∈ w.past, d.caller < w.calls.length

/-- A call that is not made yet has done nothing. -/
theorem Recorded.actsOf_eq_nil (hw : w.Recorded) (hi : w.calls.length ≤ i) : w.actsOf i = [] := by
  rw [actsOf, List.map_eq_nil_iff, List.filter_eq_nil_iff]
  intro d hd hcaller
  exact absurd (hw.made d hd) (by rw [of_decide_eq_true hcaller]; omega)

theorem lt_length_of_stage? {stage : SyncStage} (hi : w.stage? i = some stage) :
    i < w.calls.length := by
  by_contra hlt
  rw [stage?_eq_none_of_length_le (by omega)] at hi
  cases hi

theorem recorded_ofProject (settings : Settings) (p : Project) (clock : Moment) :
    (ofProject settings p clock).Recorded :=
  ⟨nofun, nofun⟩

/-- One step leaves the acts of each sync in flight fitting its place. -/
theorem Recorded.step (hw : w.Recorded) (hstep : Step w h w') : w'.Recorded := by
  cases hstep with
  | enter session stages calls past =>
    refine ⟨fun hj ↦ ?_, fun d hd ↦ ?_⟩
    · rw [actsOf_congr past]
      rcases stage?_cases stages hj with ⟨rfl, hcalled⟩ | ⟨-, hj⟩
      · -- whoever is called for has done nothing yet
        rw [← Option.some.inj hcalled, hw.actsOf_eq_nil (Nat.le_refl _)]
        exact .called
      · exact hw.record hj
    · rw [calls]
      exact Nat.lt_succ_of_lt (hw.made d (past ▸ hd))
  | @change _ _ i stage next a caller before change stages calls past =>
    refine ⟨fun hj ↦ ?_, fun d hd ↦ ?_⟩
    · rcases stage?_cases stages hj with ⟨rfl, rfl⟩ | ⟨hji, hj⟩
      · -- the act of this sync is the last one it has done
        rw [actsOf_self past]
        exact (hw.record before).step change
      · rw [actsOf_of_ne past hji]
        exact hw.record hj
    · rw [calls]
      rw [past, List.mem_append, List.mem_map] at hd
      rcases hd with hd | ⟨x, -, rfl⟩
      · exact hw.made d hd
      · exact lt_length_of_stage? before
  | aside session stages calls past =>
    refine ⟨fun hj ↦ ?_, fun d hd ↦ ?_⟩
    · rw [actsOf_congr past]
      exact hw.record (stages ▸ hj)
    · exact Nat.lt_of_lt_of_le (hw.made d (past ▸ hd)) calls

/-! ### The past only grows -/

/-- Nothing in the past is ever undone. -/
theorem Step.past_grows (hstep : Step w h w') : w.past <+: w'.past := by
  cases hstep with
  | enter session stages calls past => exact past ▸ List.prefix_refl _
  | change caller before change stages calls past => exact past ▸ List.prefix_append _ _
  | aside session stages calls past => exact past ▸ List.prefix_refl _

/-- The past of a longer run begins with the past of the shorter one. -/
theorem past_run_grows (settings : Settings) (p : Project) (clock : Moment)
    (before after : List Happening) : ((ofProject settings p clock).run before).past <+:
      ((ofProject settings p clock).run (before ++ after)).past := by
  induction after using List.reverseRecOn with
  | nil => exact (List.append_nil before).symm ▸ List.prefix_refl _
  | append_singleton after h ih =>
    rw [← List.append_assoc, run_concat]
    exact ih.trans (step_run settings p clock (before ++ after) h).past_grows

/-- After every run the acts of each sync in flight fit its place. -/
theorem recorded_run (settings : Settings) (p : Project) (clock : Moment) (hs : List Happening) :
    ((ofProject settings p clock).run hs).Recorded :=
  run_induction (recorded_ofProject settings p clock) (fun hw hstep ↦ hw.step hstep) hs

end Course

end GraphSession
