import GraphSession.Proofs.Schedule.Moments
import GraphSession.Proofs.Session.Problem
import GraphSession.Proofs.Session.SingleTask
import GraphSession.Proofs.Session.SlotState

/-!
# Whether a sync counts as under way

The flag of the status is raised by a sync that takes the lock, and lowered by a sync that closes
and by every cancellation that returns. The two do not know of each other.

**When all calls have returned the flag is down** (`syncing_of_returned`), as long as nobody was
given up. The sync that took the lock last lowers the flag when it closes; it only fails to if its
task was cancelled. But a task is told to end by a cancellation or by a later sync, and a
cancellation that has told a task to end lowers the flag itself, after the task has ended
(`Course.Told`, `Course.Cleared`).

**While a task is followed the flag may be down.** A cancellation lowers it even if it has found no
task, because the submission was not answered yet, and even if a later sync has taken the lock while
it waited. So the flag says of the sync that took the lock last whether a cancellation has returned
since (`syncing_iff`), and not whether it is under way.
-/

namespace GraphSession

/-- Whether a sync has taken the lock. -/
def Act.isBeginning : Act → Bool
  | began _ _ => true
  | _ => false

namespace SyncStage

/-- Whether a sync comes back with a task that was cancelled. -/
def isQuitting : SyncStage → Bool
  | returning _ _ (some (.error e)) => e.isCancelled
  | _ => false

variable {s s' : Session} {stage stage' : SyncStage} {next : Option SyncStage} {a : Option Act}

/-- Only a sync that takes the lock raises the flag, and only one that closes lowers it. -/
theorem Change.syncing_of_generation_eq (h : Change s stage s' next a)
    (hgen : s'.generation = s.generation) :
    s'.status.syncing = s.status.syncing ∨
      s'.status.syncing = false ∧ ∃ act, a = some act ∧ act.isClosing = true := by
  have hflag := h.syncing
  rcases a with _ | act
  · exact .inl hflag
  · cases act with
    | began g clock =>
      obtain ⟨rfl, hbegun⟩ := h.of_began
      rw [hgen] at hbegun
      exact absurd hbegun (Nat.ne_of_lt (Nat.lt_succ_self _))
    | failed | wroteBack => exact .inr ⟨hflag, _, rfl, rfl⟩
    | _ => exact .inl hflag

/-- A sync that waits for the lock has not begun. -/
theorem Record.of_queued {acts : List Act} {t : Nat} {w : Workflow} {pic : Option String}
    (h : Record (.queued t w pic) acts) {act : Act} (hact : act ∈ acts) :
    act.isBeginning = false := by
  cases h with
  | queued t w a =>
    rcases List.mem_cons.1 hact with rfl | hact
    · rfl
    · rw [List.mem_singleton.1 hact]
      rfl

/-- **A sync of the current generation lowers the flag, or goes on**; and it comes to quit only if
its task was told to end. -/
theorem Change.goesOn (h : Change s stage s' next a) (hflag : s'.status.syncing = true)
    (hcurrent : stage.generation? = some s.generation) (hstage : stage.isQuitting = false)
    (hgiven : next = none → a ≠ none) (hfits : stage.Fits s.desk) :
    ∃ stage', next = some stage' ∧ stage'.generation? = some s'.generation ∧
      (stage'.isQuitting = true →
        ∃ m, stage = .following s.generation m ∧ m.isTold s.desk = true) := by
  have hraised := h.syncing
  rw [hflag] at hraised
  cases h with
  | begin => cases hcurrent
  | refuse | reject | writeBack | fail => cases hraised
  | quit t e held cancelled =>
    rw [isQuitting, cancelled] at hstage
    cases hstage
  -- overtake | the sync is the current one, and not given up
  | overtake t g o held later => exact absurd (Option.some.inj hcurrent).symm later
  | abandon => exact absurd rfl (hgiven rfl)
  | comeBack g m d o finishes told =>
    obtain rfl := Option.some.inj hcurrent
    -- it comes back with a failure by cancellation only when it was told to end
    refine ⟨_, rfl, rfl, fun hquit ↦ ⟨m, rfl, ?_⟩⟩
    rcases o with e | r
    · exact told e rfl hquit
    · cases hquit
  | unfollow t g id e taken =>
    rw [hfits.register_eq rfl] at taken
    cases taken
  | finish t g p s' released =>
    subst released
    exact ⟨_, rfl, hcurrent, nofun⟩
  | _ => exact ⟨_, rfl, hcurrent, nofun⟩

/-- **To follow a task that was told to end** one has followed it before. -/
theorem Change.of_told {g : Nat} {m : Monitor} (h : Change s stage s' (some (.following g m)) a)
    (htold : m.isTold s'.desk = true) (hfree : s.desk.active = none → s.desk.slot.unfinished = []) :
    ∃ m', stage = .following g m' ∧ m'.ticket = m.ticket ∧ m'.isTold s.desk = true := by
  cases h with
  | follow t g id m d registered =>
    obtain ⟨free, rfl, rfl⟩ := Monitor.eq_of_register registered
    -- nobody has told a task to end that was registered just now
    have hunmarked := Desk.isCancelled_occupied (hfree free) id
    have hcancelled : (s.desk.occupied id).isCancelled s.desk.tickets = true := htold
    rw [hunmarked] at hcancelled
    cases hcancelled
  | take g m m' d text intake follows => exact ⟨m, rfl, follows.ticket.symm, follows.isTold htold⟩
  | pass g m m' d follows => exact ⟨m, rfl, follows.ticket.symm, follows.isTold htold⟩

end SyncStage

namespace Course

variable {w w' : Course} {h : Happening} {i j : Nat}

/-! ### Who lowers the flag -/

/-- If the task of the sync that took the lock last was told to end, then a cancellation waits for
its end. -/
def Told (w : Course) : Prop :=
  ∀ i m, w.stage? i = some (.following w.session.generation m) → m.isTold w.session.desk = true →
    ∃ j, w.awaited? j = some m.ticket

/-- If the flag is up, then somebody in flight will lower it: the sync that took the lock last,
unless it is about to quit, or a cancellation that waits. -/
def Cleared (w : Course) : Prop :=
  w.session.status.syncing = true →
    (∃ i stage, w.stage? i = some stage ∧ stage.generation? = some w.session.generation ∧
      stage.isQuitting = false) ∨ ∃ j t, w.awaited? j = some t

theorem told_ofProject (settings : Settings) (p : Project) (clock : Moment) :
    (ofProject settings p clock).Told :=
  nofun

theorem cleared_ofProject (settings : Settings) (p : Project) (clock : Moment) :
    (ofProject settings p clock).Cleared :=
  nofun

/-- While a task is followed it has not ended. -/
theorem Seated.not_isClosed (hs : w.Seated) {g : Nat} {m : Monitor}
    (hi : w.stage? i = some (.following g m)) : ¬ w.session.desk.isClosed m.ticket = true := by
  rw [Desk.isClosed_iff, (hs.seated (seatOf_of_following hi)).2, not_not]
  exact List.mem_singleton_self _

/-- **A cancellation tells of itself**: it waits for the task that it has told to end. -/
theorem Told.of_cancels (hw : w.Told) (hs : w.Seated) (hdrop : h.isDrop = false)
    (cancels : w.Cancels h w') {m : Monitor}
    (hi : w.stage? i = some (.following w.session.generation m))
    (htold : m.isTold w'.session.desk = true) : ∃ j, w'.awaited? j = some m.ticket := by
  cases cancels with
  | none silent guards syncing awaited =>
    rw [awaited]
    refine hw i m hi ?_
    rw [Monitor.isTold, Desk.isCancelled, guards] at htold
    exact htold
  | tell j a silent active session awaited =>
    obtain ⟨hactive, -⟩ := hs.seated (seatOf_of_following hi)
    obtain rfl := Option.some.inj (active.symm.trans hactive)
    exact ⟨j, by rw [awaited, Function.update_self]⟩
  | finish j returns ended session awaited =>
    rw [session] at htold
    obtain ⟨k, hk⟩ := hw i m hi htold
    refine ⟨k, ?_⟩
    rw [awaited, Function.update_of_ne, hk]
    -- one that waits for this task cannot return before it has ended
    rintro rfl
    exact hs.not_isClosed hi (ended _ hk)
  | drop j => cases hdrop

/-- As long as no call is given up, a task that was told to end has a cancellation waiting for it.
-/
theorem Told.step (hw : w.Told) (hn : w.Numbered) (hs : w.Seated) (hl : w.Led)
    (hdrop : h.isDrop = false) (hstep : Step w h w') : w'.Told := by
  intro i m hi htold
  cases hstep with
  | enter session stages calls past awaited =>
    rw [session] at hi htold
    rw [awaited]
    rcases stage?_of_enter stages hi with hcalled | hi
    · cases hcalled
    · exact hw i m hi htold
  | @change _ _ k stage next a caller before change stages calls past awaited =>
    rw [awaited]
    have hlead : w'.Leads i (.following w'.session.generation m) := ⟨hi, rfl, rfl⟩
    obtain ⟨hgen, ⟨hold, hik⟩ | ⟨rfl, rfl, -⟩⟩ := hlead.of_change hn before change stages
    · rw [hold.desk_eq hn hl hik before change hgen] at htold
      exact hw i m (hgen ▸ hold.inFlight) htold
    · obtain ⟨m', rfl, hticket, htold'⟩ := change.of_told htold fun free ↦
        (hs.vacant (hs.eq_none free)).2
      rw [← hticket]
      exact hw i m' (hgen ▸ before) htold'
  | aside session stages calls past cancels =>
    rw [stages, session.generation] at hi
    exact hw.of_cancels hs hdrop cancels hi htold

/-- As long as no call is given up, a raised flag has somebody in flight who will lower it. -/
theorem Cleared.step (hw : w.Cleared) (htold : w.Told) (hn : w.Numbered) (hs : w.Seated)
    (hl : w.Slotted) (hdrop : h.isDrop = false) (hstep : Step w h w') : w'.Cleared := by
  intro hflag
  cases hstep with
  | enter session stages calls past awaited =>
    rw [session] at hflag ⊢
    rcases hw hflag with ⟨i, stage, hi, hcurrent, hstage⟩ | ⟨j, t, hj⟩
    · refine .inl ⟨i, stage, ?_, hcurrent, hstage⟩
      rw [stages, Function.update_of_ne (Nat.ne_of_lt (lt_length_of_stage? hi)), hi]
    · exact .inr ⟨j, t, by rw [awaited, hj]⟩
  | @change _ _ k stage next a caller before change stages calls past awaited given =>
    -- a sync that takes the lock raises the flag, and lowers it itself; any other finds it raised
    rcases change.numbering with ⟨hgen, -⟩ | ⟨t, sw, pic, prev, -, -, hgen, rfl⟩
    · have hraised : w.session.status.syncing = true := by
        rcases change.syncing_of_generation_eq hgen with hsame | ⟨hlowered, -⟩
        · rw [← hsame, hflag]
        · rw [hlowered] at hflag
          cases hflag
      rcases hw hraised with ⟨i, stage', hi, hcurrent, hstage⟩ | ⟨j, t, hj⟩
      · rcases eq_or_ne i k with rfl | hik
        · -- this is the sync that would lower the flag
          obtain rfl := Option.some.inj (before.symm.trans hi)
          obtain ⟨stage', rfl, hcurrent', hquit⟩ := change.goesOn hflag hcurrent hstage
            (fun hnext hnone ↦ by simp [given hnext hnone] at hdrop) (hl.fits hn hs before)
          by_cases hquits : stage'.isQuitting = true
          · -- the cancellation that has told its task to end is still waiting
            obtain ⟨m, rfl, hmark⟩ := hquit hquits
            obtain ⟨j, hj⟩ := htold i m before hmark
            exact .inr ⟨j, _, by rw [awaited, hj]⟩
          · refine .inl ⟨i, stage', ?_, hcurrent', by simpa using hquits⟩
            rw [stages, Function.update_self]
        · -- the one that would lower it is another sync, which stays
          refine .inl ⟨i, stage', ?_, by rw [hgen, hcurrent], hstage⟩
          rw [stages, Function.update_of_ne hik, hi]
      · exact .inr ⟨j, t, by rw [awaited, hj]⟩
    · -- the sync that has just taken the lock will lower it
      refine .inl ⟨k, .stopping t (w.session.generation + 1) sw pic prev, ?_,
        congrArg some hgen.symm, rfl⟩
      rw [stages, Function.update_self]
  | aside session stages calls past cancels =>
    cases cancels with
    | none silent guards syncing awaited =>
      rw [session.generation, stages, awaited]
      exact hw (syncing ▸ hflag)
    | tell j a silent active hsession awaited =>
      -- a cancellation that waits lowers the flag when it returns
      exact .inr ⟨j, a.ticket, by rw [awaited, Function.update_self]⟩
    | finish j returns ended hsession =>
      rw [hsession] at hflag
      cases hflag
    | drop j => cases hdrop

/-! ### When all have returned -/

/-- After every run in which no call is given up, both hold. -/
theorem told_and_cleared_run (settings : Settings) (p : Project) (clock : Moment)
    {hs : List Happening} (driven : ∀ h ∈ hs, h.isDrop = false) :
    ((ofProject settings p clock).run hs).Told ∧ ((ofProject settings p clock).run hs).Cleared := by
  refine run_induction_of (P := fun w ↦ w.Told ∧ w.Cleared) (R := fun h ↦ h.isDrop = false)
    ⟨told_ofProject settings p clock, cleared_ofProject settings p clock⟩
    (fun hdrop hw hstep ↦ ⟨?_, ?_⟩) hs driven
  · exact hw.1.step (numbered_run settings p clock _) (seated_run settings p clock _)
      (led_run settings p clock _) hdrop hstep
  · exact hw.2.step hw.1 (numbered_run settings p clock _) (seated_run settings p clock _)
      (slotted_run settings p clock _) hdrop hstep

/-- **When all calls have returned no sync counts as under way,** if none of them was given up. -/
theorem syncing_of_returned (settings : Settings) (p : Project) (clock : Moment)
    {hs : List Happening} (driven : ∀ h ∈ hs, h.isDrop = false)
    (returned : ∀ i, ((ofProject settings p clock).run hs).call? i = none) :
    ((ofProject settings p clock).run hs).session.status.syncing = false := by
  obtain ⟨-, hcleared⟩ := told_and_cleared_run settings p clock driven
  by_contra hflag
  rcases hcleared (by simpa using hflag) with ⟨i, stage, hi, -, -⟩ | ⟨j, t, hj⟩
  · rw [stage?, returned i] at hi
    cases hi
  · rw [awaited?, returned j] at hj
    cases hj

/-- A sync follows its task, a cancellation tells the task to end, and both return. -/
def cancelledSync : List Happening :=
  [.sync, .turn 0, .answer 0 (taskAnswer "t"), .turn 0, .turn 0, .turn 0,
    .answer 0 (taskAnswer "t"), .turn 0, .turn 0, .cancel, .turn 1, .turn 0, .turn 0,
    .serve (.close 0), .turn 0, .turn 1, .turn 0]

/-- When every call has returned, none is in flight. -/
theorem call?_eq_none_of_all (hall : w.calls.all Option.isNone = true) (i : Nat) :
    w.call? i = none := by
  rw [call?]
  cases hi : w.calls[i]? with
  | none => rfl
  | some c =>
    have hnone := List.all_eq_true.1 hall c (List.mem_of_getElem? hi)
    exact Option.isNone_iff_eq_none.1 hnone

/-- The sync quits without a word, and the cancellation has lowered the flag. -/
theorem syncing_cancelledSync :
    (∀ h ∈ cancelledSync, h.isDrop = false) ∧
      (∀ i, ((ofProject .default (.carrying .empty) default).run cancelledSync).call? i = none) ∧
      ((ofProject .default (.carrying .empty) default).run
        cancelledSync).session.status.syncing = false := by
  have driven : ∀ h ∈ cancelledSync, h.isDrop = false := by
    simp [cancelledSync, Happening.isDrop]
  have returned : ∀ i,
      ((ofProject .default (.carrying .empty) default).run cancelledSync).call? i = none :=
    call?_eq_none_of_all rfl
  exact ⟨driven, returned, syncing_of_returned .default (.carrying .empty) default driven returned⟩

/-! ### While a sync is under way -/

/-- A cancellation has returned since a sync took the lock. -/
def CancelledSince (w : Course) (hs : List Happening) (i : Nat) : Prop :=
  ∃ before h after, hs = before ++ h :: after ∧ (w.run before).Has Act.isBeginning i ∧
    (w.run before).CancelReturns h

/-- A cancellation since the lock was taken is one before the last happening, or the last happening
itself. -/
theorem cancelledSince_concat {hs : List Happening} : w.CancelledSince (hs ++ [h]) i ↔
    w.CancelledSince hs i ∨ (w.run hs).Has Act.isBeginning i ∧ (w.run hs).CancelReturns h :=
  exists_moment_concat

/-- What becomes of the flag while a sync of the current generation is in flight: a cancellation
lowers it, or the sync has just taken the lock and raised it, or it stays. -/
inductive FlagStep (w : Course) (h : Happening) (w' : Course) (i : Nat) : Prop
  | lowered (returns : w.CancelReturns h) (began : w.Has Act.isBeginning i)
      (syncing : w'.session.status.syncing = false)
  | raised (silent : ¬ w.CancelReturns h) (fresh : ¬ w.Has Act.isBeginning i)
      (syncing : w'.session.status.syncing = true)
  | stays (silent : ¬ w.CancelReturns h) (stage : SyncStage) (before : w.stage? i = some stage)
      (current : stage.generation? = some w.session.generation)
      (syncing : w'.session.status.syncing = w.session.status.syncing)

/-- What a step makes of the flag of the current sync. -/
theorem Step.flagStep (hstep : Step w h w') (hn : w.Numbered) (hr : w.Recorded)
    {stage : SyncStage} (hi : w'.stage? i = some stage)
    (hcurrent : stage.generation? = some w'.session.generation) : w.FlagStep h w' i := by
  cases hstep with
  | enter session stages calls past =>
    rw [session] at hcurrent
    rcases stage?_of_enter stages hi with rfl | hi
    · cases hcurrent
    · exact .stays (not_cancelReturns_of_ne nofun) stage hi hcurrent (by rw [session])
  | @change _ _ k stage' next a caller before change stages calls past =>
    have silent := not_cancelReturns_of_stage? before caller
    rcases change.numbering with ⟨hgen, hsame⟩ | ⟨t, sw, pic, prev, rfl, -, hgen, rfl⟩
    · rw [hgen] at hcurrent
      rcases stage?_cases stages hi with ⟨rfl, rfl⟩ | ⟨hik, hi⟩
      · -- a sync that closes is not in flight any more
        refine .stays silent stage' before ((hsame _ rfl).1 ▸ hcurrent) ?_
        rcases change.syncing_of_generation_eq hgen with hflag | ⟨-, act, rfl, hclosing⟩
        · exact hflag
        · cases (change.of_isClosing hclosing).1
      · -- nor does another one that closes belong to this generation
        refine .stays silent stage hi hcurrent ?_
        rcases change.syncing_of_generation_eq hgen with hflag | ⟨-, act, rfl, hclosing⟩
        · exact hflag
        · exact absurd (hn.eq_of_isClosing hi hcurrent before change hclosing) hik
    · rcases stage?_cases stages hi with ⟨rfl, -⟩ | ⟨-, hi⟩
      · -- it was in line, so it had not begun before
        refine .raised silent ?_ (by rw [change.of_stopping.1]; rfl)
        rintro ⟨act, hact, hmem⟩
        rw [(hr.record before).of_queued (mem_actsOf.2 hmem)] at hact
        cases hact
      · rw [hgen] at hcurrent
        exact absurd (hn.generation_le hi hcurrent) (Nat.not_succ_le_self _)
  | aside session stages calls past cancels =>
    rw [stages] at hi
    rw [session.generation] at hcurrent
    cases cancels with
    | none silent guards syncing => exact .stays silent stage hi hcurrent syncing
    | tell k a silent active hsession =>
      exact .stays silent stage hi hcurrent (by rw [hsession])
    | finish k returns ended hsession =>
      -- a current sync has begun before the cancellation returns
      obtain ⟨c, hc⟩ := (hr.record hi).exists_began hcurrent
      exact .lowered ⟨k, rfl, returns⟩ ⟨_, rfl, mem_actsOf.1 hc⟩ (by rw [hsession]; rfl)
    | drop k hsession =>
      exact .stays (not_cancelReturns_of_ne nofun) stage hi hcurrent (by rw [hsession])

/-- **What the flag says of the sync that took the lock last**, as long as it has not returned: that
no cancellation has returned since. -/
theorem syncing_iff (settings : Settings) (p : Project) (clock : Moment) (hs : List Happening)
    {stage : SyncStage} (hi : ((ofProject settings p clock).run hs).stage? i = some stage)
    (hcurrent : stage.generation? =
      some ((ofProject settings p clock).run hs).session.generation) :
    ((ofProject settings p clock).run hs).session.status.syncing = true ↔
      ¬ (ofProject settings p clock).CancelledSince hs i := by
  induction hs using List.reverseRecOn generalizing stage with
  | nil => cases hi
  | append_singleton hs h ih =>
    rw [run_concat] at hi hcurrent ⊢
    rw [cancelledSince_concat]
    have hstep := step_run settings p clock hs h
    rcases hstep.flagStep (numbered_run settings p clock hs) (recorded_run settings p clock hs) hi
      hcurrent with ⟨returns, began, hflag⟩ | ⟨silent, fresh, hflag⟩ |
        ⟨silent, stage', before, current, hflag⟩
    · simp [hflag, returns, began]
    · -- it had not begun when those cancellations returned
      have hnot : ¬ (ofProject settings p clock).CancelledSince hs i := by
        rintro ⟨early, h', late, rfl, ⟨act, hact, hmem⟩, -⟩
        exact fresh ⟨act, hact, (past_run_grows settings p clock early (h' :: late)).subset hmem⟩
      simp [hflag, silent, hnot]
    · rw [hflag, ih before current]
      simp [silent]

/-- A cancellation is called for, and returns, while the backend has not answered yet. -/
def hushedSync : List Happening :=
  [.sync, .turn 0, .answer 0 (taskAnswer "t"), .turn 0, .turn 0, .turn 0, .cancel, .turn 1,
    .answer 0 (taskAnswer "t"), .turn 0, .turn 0]

/-- Then the task is followed, and no sync counts as under way. -/
theorem syncing_hushedSync :
    ∃ m, ((ofProject .default (.carrying .empty) default).run hushedSync).stage? 0 =
        some (.following 1 m) ∧
      ((ofProject .default (.carrying .empty) default).run hushedSync).session.generation = 1 ∧
      (((ofProject .default (.carrying .empty) default).run
          hushedSync).session.status.syncing = true ↔
        ¬ (ofProject .default (.carrying .empty) default).CancelledSince hushedSync 0) ∧
      ((ofProject .default (.carrying .empty) default).run
        hushedSync).session.status.syncing = false :=
  ⟨_, rfl, rfl, syncing_iff .default (.carrying .empty) default hushedSync rfl rfl, rfl⟩

end Course

end GraphSession
