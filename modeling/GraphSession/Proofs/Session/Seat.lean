import GraphSession.Proofs.Session.Exclusion
import GraphSession.Proofs.Session.Record

/-!
# Who has a task

The slot of the task desk belongs to the one sync that follows a task, from the moment the task is
registered until it has ended, and nobody else submits meanwhile.

* `Desk.Seats`: the task in the slot is the task of the one who follows, and it is the only one that
  has not ended; without a follower the slot is vacant. Taking the slot, when it is free, and giving
  it back keep this (`SeatUse.seats`).
* `Course.Seated`: it is so in every course.
* `Course.Tuned`: whoever follows a task listens to a channel of that very task, which was opened
  since. So a channel of another task is never listened to, even if it is of the same name.
* `Course.Underway`: the last submission is the one of whoever waits for its answer or follows its
  task.
-/

namespace GraphSession

namespace Desk

/-- The slot is for the one who follows a task, and vacant if there is none. -/
structure Seats (d : Desk) (seatOf : Nat → Option ActiveTask) : Prop where
  seated : ∀ {i a}, seatOf i = some a → d.active = some a ∧ d.slot.unfinished = [a.ticket]
  alone : ∀ {i j a b}, seatOf i = some a → seatOf j = some b → i = j
  vacant : (∀ i, seatOf i = none) → d.active = none ∧ d.slot.unfinished = []

/-- Where the slot is vacant nobody follows a task. -/
theorem Seats.eq_none {d : Desk} {seatOf : Nat → Option ActiveTask} (h : d.Seats seatOf)
    (free : d.active = none) (i : Nat) : seatOf i = none := by
  cases hi : seatOf i with
  | none => rfl
  | some a =>
    have hactive := (h.seated hi).1
    rw [free] at hactive
    cases hactive

end Desk

namespace SyncStage

/-- The task that a sync follows. -/
def seat? : SyncStage → Option ActiveTask
  | following _ m => some ⟨m.taskId, m.ticket⟩
  | _ => none

/-- What becomes of the slot, and of the seat of a sync, when something happens to the sync. -/
inductive SeatUse (d : Desk) : Option ActiveTask → Desk → Option ActiveTask → Prop
  | keep {d' : Desk} (a : Option ActiveTask) (active : d'.active = d.active)
      (unfinished : d'.slot.unfinished = d.slot.unfinished) : SeatUse d a d' a
  | take {d' : Desk} (a : ActiveTask) (free : d.active = none) (active : d'.active = some a)
      (unfinished : d'.slot.unfinished = d.slot.unfinished ++ [a.ticket]) :
      SeatUse d none d' (some a)
  /-- Gives back a slot that was his. -/
  | give {d' : Desk} (a : ActiveTask)
      (released : d.active = some a → d.slot.unfinished = [a.ticket] →
        d'.active = none ∧ d'.slot.unfinished = []) : SeatUse d (some a) d' none

theorem SeatUse.of_slot {d d' : Desk} (a : Option ActiveTask) (h : d'.slot = d.slot) :
    SeatUse d a d' a :=
  .keep a (congrArg Slot.active h) (congrArg Slot.unfinished h)

/-- A monitor that follows its task keeps its seat. -/
theorem SeatUse.of_follows {d d' : Desk} {m m' : Monitor} {text : Option String}
    (h : Monitor.Follows d m text d' m') :
    SeatUse d (some ⟨m.taskId, m.ticket⟩) d' (some ⟨m'.taskId, m'.ticket⟩) := by
  rw [h.taskId, h.ticket]
  exact .of_slot _ h.slot

/-- A monitor that finishes gives up its seat. -/
theorem SeatUse.of_finishes {d d' : Desk} {m : Monitor} {o : Monitor.Outcome}
    (h : Monitor.Finishes d m o d') : SeatUse d (some ⟨m.taskId, m.ticket⟩) d' none := by
  refine .give _ fun hactive hunfinished ↦ ?_
  have hslot : d'.slot = ⟨o.state, none, []⟩ :=
    h.slot.trans (Desk.slot_finish hactive hunfinished _ _)
  exact ⟨congrArg Slot.active hslot, congrArg Slot.unfinished hslot⟩

variable {s s' : Session} {stage : SyncStage} {next : Option SyncStage} {a : Option Act}

/-- The end of a submission leaves the task in the slot, if there is one. -/
theorem seat_endSubmission (s : Session) (o : TaskState) :
    (endSubmission s o).desk.active = s.desk.active ∧
      (endSubmission s o).desk.slot.unfinished = s.desk.slot.unfinished := by
  rcases s.desk.attempt_finishSubmission o with h | h <;> rw [endSubmission, Session.onDesk, h] <;>
    exact ⟨rfl, rfl⟩

/-- **A task is taken on only in a free slot, and nobody touches the slot but for his own task.** -/
theorem Change.seatUse (h : Change s stage s' next a) :
    SeatUse s.desk stage.seat? s'.desk (next.bind seat?) := by
  cases h with
  | begin => exact .of_slot none s.desk.slot_signalCancel
  | submit t g w pic before d free =>
    obtain ⟨-, rfl⟩ := Desk.eq_of_beginSubmission free
    exact .keep none rfl rfl
  | reject t g e =>
    obtain ⟨active, unfinished⟩ := seat_endSubmission s .errored
    exact .keep none active unfinished
  | finish t g p s' released =>
    subst released
    obtain ⟨active, unfinished⟩ := seat_endSubmission (s.onProject fun _ ↦ p) .completed
    exact .keep none active unfinished
  | follow t g id m d registered =>
    -- a task is registered in a vacant slot only
    obtain ⟨free, rfl, rfl⟩ := Monitor.eq_of_register registered
    have hslot := s.desk.slot_occupied id
    exact .take _ free (congrArg Slot.active hslot) (congrArg Slot.unfinished hslot)
  | take g m m' d text intake follows => exact .of_follows follows
  | pass g m m' d follows => exact .of_follows follows
  | comeBack g m d o finishes => exact .of_finishes finishes
  | writeBack t o held ended =>
    rw [noteTimeout_eq]
    exact .of_slot none rfl
  -- abandon | whoever gives up a task gives up its seat
  | abandon =>
    cases stage with
    | following g m => exact .of_finishes Monitor.finishes_of_abandon
    | _ => exact .of_slot none rfl
  | _ => exact .of_slot none rfl

/-- A monitor that goes on stays tuned, and one that begins listens to nothing yet. -/
theorem Change.tuned (h : Change s stage s' next a) {acts : List Act} {g n k : Nat} {m : Monitor}
    {id : String} (hnext : next = some (following g m)) (hrecord : Record stage acts)
    (hact : .followed k id n ∈ acts ++ a.toList)
    (hbefore : ∀ g' m', stage = following g' m' → .followed k id n ∈ acts → m'.Tuned n s.desk) :
    m.Tuned n s'.desk := by
  rw [List.mem_append] at hact
  cases h with
  | follow t g id m d registered =>
    obtain ⟨-, rfl, rfl⟩ := Monitor.eq_of_register registered
    obtain ⟨-, rfl⟩ := following.inj (Option.some.inj hnext)
    rcases hact with hold | hnew
    · -- it had not followed a task before
      cases hrecord
      simp [opening] at hold
    · obtain ⟨-, -, rfl⟩ := Act.followed.inj (List.mem_singleton.1 hnew)
      exact ⟨Nat.le_refl _, fun _ hn ↦ by cases hn⟩
  | take g m m' d text intake follows =>
    obtain ⟨-, rfl⟩ := following.inj (Option.some.inj hnext)
    rcases hact with hold | hnew
    · exact follows.tuned n (hbefore g m rfl hold)
    · cases List.mem_singleton.1 hnew
  | pass g m m' d follows =>
    obtain ⟨-, rfl⟩ := following.inj (Option.some.inj hnext)
    rcases hact with hold | hnew
    · exact follows.tuned n (hbefore g m rfl hold)
    · cases hnew
  | _ => cases hnext

/-- Whoever submits has the lock, and found the slot free. -/
theorem Change.of_isSubmission (h : Change s stage s' next a)
    (ha : a.any Act.isSubmission = true) : ∃ t, stage.held? = some t ∧ s.desk.active = none := by
  cases h with
  | submit t g w pic before d free => exact ⟨t, rfl, (Desk.eq_of_beginSubmission free).1⟩
  | _ => cases ha

/-- Whether a sync has submitted, and waits for the answer or follows the task. -/
def isUnderway : SyncStage → Bool
  | submitting _ _ _ | answered _ _ _ | following _ _ => true
  | _ => false

/-- A sync gets under way by submitting only. -/
theorem Change.isUnderway (h : Change s stage s' next a) (ha : ¬a.any Act.isSubmission = true)
    {stage' : SyncStage} (hnext : next = some stage') (hunder : stage'.isUnderway = true) :
    stage.isUnderway = true := by
  cases h with
  | submit => exact absurd rfl ha
  | reply | follow | take | pass => rfl
  | refuse | reject | writeBack | quit | fail | overtake | abandon => cases hnext
  | _ =>
    obtain rfl := Option.some.inj hnext
    cases hunder

/-- However a sync uses the slot, it is for the one who follows a task afterwards. -/
theorem SeatUse.seats {d d' : Desk} {t t' : Option ActiveTask} {seatOf : Nat → Option ActiveTask}
    {i : Nat} (h : SeatUse d t d' t') (hd : d.Seats seatOf) (hi : seatOf i = t) :
    d'.Seats (Function.update seatOf i t') := by
  cases h with
  | keep a active unfinished =>
    rw [← hi, Function.update_eq_self]
    exact ⟨active ▸ unfinished ▸ hd.seated, hd.alone, active ▸ unfinished ▸ hd.vacant⟩
  | take a free active unfinished =>
    -- nobody else follows a task, since the slot was free
    have hnone := hd.eq_none free
    have hown : ∀ {j b}, Function.update seatOf i (some a) j = some b → j = i ∧ b = a := by
      intro j b hj
      rcases update_eq_some_iff.1 hj with ⟨hji, hb⟩ | ⟨-, hj⟩
      · exact ⟨hji, (Option.some.inj hb).symm⟩
      · rw [hnone j] at hj
        cases hj
    rw [(hd.vacant hnone).2] at unfinished
    refine ⟨fun hj ↦ ?_, fun hj hk ↦ (hown hj).1.trans (hown hk).1.symm, fun hall ↦ ?_⟩
    · obtain ⟨-, rfl⟩ := hown hj
      exact ⟨active, unfinished⟩
    · have hi := hall i
      rw [Function.update_self] at hi
      cases hi
  | give a released =>
    obtain ⟨hactive, hunfinished⟩ := hd.seated hi
    -- nobody else had a seat
    have hnone : ∀ j, Function.update seatOf i none j = none := by
      intro j
      rcases eq_or_ne j i with rfl | hji
      · rw [Function.update_self]
      · rw [Function.update_of_ne hji]
        by_contra hj
        obtain ⟨b, hb⟩ := Option.ne_none_iff_exists'.1 hj
        exact hji (hd.alone hb hi)
    refine ⟨fun hj ↦ ?_, fun hj ↦ ?_, fun _ ↦ released hactive hunfinished⟩
    · rw [hnone] at hj
      cases hj
    · rw [hnone] at hj
      cases hj

end SyncStage

namespace Course

variable {w w' : Course} {h : Happening} {i j : Nat}

/-- The task that a sync in flight follows. -/
def seatOf (w : Course) (i : Nat) : Option ActiveTask := (w.stage? i).bind SyncStage.seat?

/-- One place changes, so one seat may change. -/
theorem seatOf_of_update {next : Option SyncStage}
    (stages : w'.stage? = Function.update w.stage? i next) :
    w'.seatOf = Function.update w.seatOf i (next.bind SyncStage.seat?) :=
  bind_of_update stages SyncStage.seat?

theorem seatOf_of_stage? {stage : SyncStage} (hi : w.stage? i = some stage) :
    w.seatOf i = stage.seat? := by
  rw [seatOf, hi]
  rfl

theorem seatOf_of_following {g : Nat} {m : Monitor} (hi : w.stage? i = some (.following g m)) :
    w.seatOf i = some ⟨m.taskId, m.ticket⟩ :=
  seatOf_of_stage? hi

/-- The slot is for the one who follows a task. -/
def Seated (w : Course) : Prop := w.session.desk.Seats w.seatOf

theorem seated_ofProject (settings : Settings) (p : Project) (clock : Moment) :
    (ofProject settings p clock).Seated :=
  ⟨nofun, nofun, fun _ ↦ ⟨rfl, rfl⟩⟩

/-- One step leaves the slot for the one who follows a task. -/
theorem Seated.step (hw : w.Seated) (hstep : Step w h w') : w'.Seated := by
  unfold Seated
  cases hstep with
  | enter session stages calls past =>
    have hlast : w.seatOf w.calls.length = none := by
      rw [seatOf, stage?_eq_none_of_length_le (Nat.le_refl _)]
      rfl
    rw [session, seatOf_of_update stages]
    exact SyncStage.SeatUse.seats (.of_slot none rfl) hw hlast
  | @change _ _ i stage next a caller before change stages calls past =>
    have hi : w.seatOf i = stage.seat? := seatOf_of_stage? before
    rw [seatOf_of_update stages]
    exact change.seatUse.seats hw hi
  | aside session stages calls past =>
    have hseat : w'.seatOf = w.seatOf := by
      funext j
      rw [seatOf, seatOf, stages]
    have hkeep := SyncStage.SeatUse.seats (.of_slot (w.seatOf 0) session.slot) hw rfl
    rw [hseat]
    rwa [Function.update_eq_self] at hkeep

/-! ### Channels -/

/-- A sync listens to a channel of its own task, which was opened after the task was started. -/
def Tuned (w : Course) : Prop :=
  ∀ i g m k id n, w.stage? i = some (.following g m) → ⟨i, .followed k id n⟩ ∈ w.past →
    m.Tuned n w.session.desk

theorem tuned_ofProject (settings : Settings) (p : Project) (clock : Moment) :
    (ofProject settings p clock).Tuned := nofun

/-- One step leaves every follower tuned to a channel of its own task. -/
theorem Tuned.step (hw : w.Tuned) (hr : w.Recorded) (hstep : Step w h w') : w'.Tuned := by
  intro j g m k id n hj hdeed
  cases hstep with
  | enter session stages calls past =>
    rw [session]
    rcases stage?_of_enter stages hj with hcalled | hj
    · cases hcalled
    · exact hw j g m k id n hj (past ▸ hdeed)
  | @change _ _ i stage next a caller before change stages calls past =>
    rw [← mem_actsOf] at hdeed
    rcases stage?_cases stages hj with ⟨rfl, rfl⟩ | ⟨hji, hj⟩
    · rw [actsOf_self past] at hdeed
      exact change.tuned rfl (hr.record before) hdeed fun g' m' hstage hold ↦
        hw j g' m' k id n (hstage ▸ before) (mem_actsOf.1 hold)
    · rw [actsOf_of_ne past hji] at hdeed
      exact (hw j g m k id n hj (mem_actsOf.1 hdeed)).of_grown change.taskIds
  | aside session stages calls past =>
    exact (hw j g m k id n (stages ▸ hj) (past ▸ hdeed)).of_grown
      (session.taskIds ▸ List.prefix_refl _)

/-! ### The last submission -/

/-- Whose submission is the last one. -/
def lastSubmitter? (past : List Deed) : Option Nat :=
  past.foldl (fun o d ↦ if d.act.isSubmission then some d.caller else o) none

/-- The last submitter is whoever submitted last. -/
theorem lastSubmitter?_append (past : List Deed) (i : Nat) (a : Option Act) :
    lastSubmitter? (past ++ a.toList.map (Deed.mk i)) =
      if a.any Act.isSubmission then some i else lastSubmitter? past := by
  cases a <;> simp [lastSubmitter?]

/-- Nobody has submitted since the sync did that waits for an answer, or follows a task. -/
def Underway (w : Course) : Prop :=
  ∀ i stage, w.stage? i = some stage → stage.isUnderway = true → lastSubmitter? w.past = some i

theorem underway_ofProject (settings : Settings) (p : Project) (clock : Moment) :
    (ofProject settings p clock).Underway := nofun

/-- One step leaves the last submission with the sync that is under way. -/
theorem Underway.step (hw : w.Underway) (hq : w.Queued) (hs : w.Seated) (hstep : Step w h w') :
    w'.Underway := by
  intro j stage' hj hunder
  cases hstep with
  | enter session stages calls past =>
    rw [past]
    rcases stage?_of_enter stages hj with rfl | hj
    · cases hunder
    · exact hw j _ hj hunder
  | @change _ _ i stage next a caller before change stages calls past =>
    rw [past, lastSubmitter?_append]
    by_cases hsub : a.any Act.isSubmission = true
    · rw [if_pos hsub]
      rcases stage?_cases stages hj with ⟨rfl, -⟩ | ⟨hji, hj⟩
      · rfl
      · -- whoever submits has the lock, and found the slot free
        obtain ⟨t, hheld, free⟩ := change.of_isSubmission hsub
        cases stage' with
        | submitting | answered => exact absurd (hq.holder_unique hj rfl before hheld) hji
        | following g m =>
          have hseat := hs.eq_none free j
          rw [seatOf_of_following hj] at hseat
          cases hseat
        | _ => cases hunder
    · rw [if_neg hsub]
      rcases stage?_cases stages hj with ⟨rfl, hnext⟩ | ⟨-, hj⟩
      · exact hw _ _ before (change.isUnderway hsub hnext hunder)
      · exact hw j _ hj hunder
  | aside session stages calls past =>
    rw [past]
    exact hw j _ (stages ▸ hj) hunder

/-! ### In every course -/

variable (settings : Settings) (p : Project) (clock : Moment) (hs : List Happening)

/-- After every run the slot is for the one who follows a task. -/
theorem seated_run : ((ofProject settings p clock).run hs).Seated :=
  run_induction (seated_ofProject settings p clock) (fun hw hstep ↦ hw.step hstep) hs

/-- After every run each follower is tuned to its own task. -/
theorem tuned_run : ((ofProject settings p clock).run hs).Tuned :=
  run_induction (tuned_ofProject settings p clock)
    (fun hw hstep ↦ hw.step (recorded_run settings p clock _) hstep) hs

/-- After every run the sync under way has submitted last. -/
theorem underway_run : ((ofProject settings p clock).run hs).Underway :=
  run_induction (underway_ofProject settings p clock)
    (fun hw hstep ↦
      hw.step (queued_run settings p clock _) (seated_run settings p clock _) hstep) hs

end Course

end GraphSession
