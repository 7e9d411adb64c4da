import GraphSession.Proofs.Session.Order
import GraphSession.Proofs.Session.SingleTask
import GraphSession.Proofs.Session.SlotState
import GraphSession.Proofs.Session.WriteBack

/-!
# What a failed sync leaves behind

A sync that returns a failure has written nothing back: whatever has happened to it from its call to
its return has left the graph and the time of the last results alone. And if nobody has taken the
lock since it did, it leaves a session on which no sync is under way, with its failure as the
problem and the slot free (`failure_leaves_no_trace`).

**Early and late failures.** A submission that fails is settled by the sync itself, with the lock in
hand; a task that fails has been taken out of the slot by its monitor, long before the sync comes
back. Both leave the same state of the slot, since the state follows the sync that leads
(`Course.Slotted`).
-/

namespace GraphSession

/-- What a session shows after a sync that has failed. -/
structure Session.Shows (s : Session) (e : Failure) : Prop where
  syncing : s.status.syncing = false
  message : s.status.message = Operation.sync.notice? e
  vacant : s.desk.active = none
  state : s.desk.state = .errored

namespace SyncStage

variable {s s' : Session} {stage : SyncStage} {next : Option SyncStage} {a : Option Act}
  {acts : List Act}

/-- A sync in flight has not written back. -/
theorem Record.not_wroteBack (h : Record stage acts) (o : Option Monitor.Outcome) :
    .wroteBack o ∉ acts := by
  cases h <;> simp [opening, descent]

/-- A submission that fails is settled by the sync. -/
theorem Change.shows_of_answered {t g : Nat} {e : Failure}
    (h : Change s (.answered t g (.error e)) s' none a) (ha : a ≠ none)
    (hfits : (answered t g (.error e)).Fits s.desk) : s'.Shows e := by
  cases h with
  | reject =>
    rw [endSubmission_eq hfits rfl rfl]
    exact ⟨rfl, rfl, hfits.active_eq_none rfl, rfl⟩
  | abandon => exact absurd rfl ha

/-- A task that fails has left the slot before. -/
theorem Change.shows_of_returning {t : Nat} {e : Failure}
    (h : Change s (.returning t s.generation (some (.error e))) s' none a)
    (hresult : a.bind Act.result? = some (.error e)) (hstate : s.desk.state = .errored)
    (hfits : (returning t s.generation (some (.error e))).Fits s.desk) : s'.Shows e := by
  have hvacant : s.desk.active = none := by
    by_contra hactive
    have hstreaming := hfits.streaming.2 (Option.isSome_iff_ne_none.2 hactive)
    rw [hstate] at hstreaming
    cases hstreaming
  cases h with
  | writeBack t o held ended => exact absurd rfl (ended e)
  | quit => cases hresult
  | fail => exact ⟨rfl, rfl, hvacant, hstate⟩
  | overtake t g o held later => exact absurd rfl later
  | abandon => cases hresult

/-- Whoever moves the generation on has begun it. -/
theorem Change.began_of_ne (h : Change s stage s' next a) (hne : s'.generation ≠ s.generation) :
    ∃ c, a = some (.began s'.generation c) := by
  rcases h.numbering with ⟨hgen, -⟩ | ⟨t, w, pic, before, rfl, -, -, rfl⟩
  · exact absurd hgen hne
  · cases h with
    | begin => exact ⟨_, rfl⟩

end SyncStage

namespace Course

variable {w w' : Course} {h : Happening} {i j : Nat}

/-! ### Who has the current generation -/

/-- Somebody has begun the current generation, if it is not the first. -/
def Begun (w : Course) : Prop :=
  w.session.generation = 0 ∨ ∃ j c, ⟨j, .began w.session.generation c⟩ ∈ w.past

theorem begun_ofProject (settings : Settings) (p : Project) (clock : Moment) :
    (ofProject settings p clock).Begun :=
  .inl rfl

/-- A generation that is the current one has been begun. -/
theorem Begun.step (hw : w.Begun) (hstep : Step w h w') : w'.Begun := by
  have hgrown := hstep.past_grows.subset
  -- whoever keeps the generation keeps its beginning in the past
  have hsame : w'.session.generation = w.session.generation → w'.Begun := by
    intro hgen
    rw [Begun, hgen]
    rcases hw with hzero | ⟨j, c, hmem⟩
    · exact .inl hzero
    · exact .inr ⟨j, c, hgrown hmem⟩
  cases hstep with
  | enter session => exact hsame (by rw [session])
  | @change _ _ i stage next a caller before change stages calls past =>
    by_cases hgen : w'.session.generation = w.session.generation
    · exact hsame hgen
    · obtain ⟨c, rfl⟩ := change.began_of_ne hgen
      exact .inr ⟨i, c, by rw [past]; simp⟩
  | aside session => exact hsame session.generation

/-- **A sync that was not overtaken is of the current generation.** -/
theorem Begun.generation?_eq (hw : w.Begun) (hn : w.Numbered) (hsucc : w.Succession)
    (hr : w.Recorded) {stage : SyncStage} {g : Nat} (hi : w.stage? i = some stage)
    (hg : stage.generation? = some g) (hnot : ¬ w.Overtaken i) : g = w.session.generation := by
  by_contra hne
  have hlt : g < w.session.generation := Nat.lt_of_le_of_ne (hn.generation_le hi hg) hne
  obtain ⟨c, hc⟩ := (hr.record hi).exists_began hg
  rw [mem_actsOf] at hc
  rcases hw with hzero | ⟨j, c', hc'⟩
  · omega
  · refine hnot ⟨g, c, j, _, c', pair_sublist hsucc.ascending hc hc' (fun heq ↦ hne ?_) fun hgt ↦
      ?_⟩
    · exact (Act.began.inj (congrArg Deed.act heq)).1
    · exact Nat.lt_asymm hlt (hgt _ _ _ _ rfl rfl)

/-! ### What it has not changed -/

/-- Only a sync that writes back puts down when it did. -/
theorem Step.lastSynced (hstep : Step w h w') :
    w'.session.status.lastSynced = w.session.status.lastSynced ∨
      ∃ i o, w'.past = w.past ++ [⟨i, .wroteBack o⟩] := by
  cases hstep with
  | enter session => exact .inl (by rw [session])
  | @change _ _ i stage next a caller before change stages calls past =>
    by_cases ha : ∃ o, a = some (.wroteBack o)
    · obtain ⟨o, rfl⟩ := ha
      exact .inr ⟨i, o, past⟩
    · exact .inl (change.lastSynced fun o ho ↦ ha ⟨o, ho⟩)
  | aside session => exact .inl session.lastSynced

/-- What a sync changes of the graph and the time of the last results, it changes by writing
back. -/
theorem Step.untouched (hstep : Step w h w') (hcaller : h.caller? = some i)
    (hnot : ∀ o, ⟨i, .wroteBack o⟩ ∉ w'.past) :
    w'.session.graph = w.session.graph ∧
      w'.session.status.lastSynced = w.session.status.lastSynced := by
  have hnobody : ¬ ∃ k o, w'.past = w.past ++ [⟨k, .wroteBack o⟩] := by
    rintro ⟨k, o, hdeed⟩
    obtain ⟨stage, next, -, hk, -⟩ := hstep.of_deed hdeed
    obtain rfl := Option.some.inj (hcaller.symm.trans hk)
    exact hnot o (by rw [hdeed]; simp)
  have hedit : ¬ h.isEdit = true := by
    cases h with
    | edit => cases hcaller
    | _ => exact nofun
  refine ⟨?_, hstep.lastSynced.resolve_right hnobody⟩
  rcases hstep.graph with hgraph | hedited | hdeed
  · exact hgraph
  · exact absurd hedited hedit
  · exact absurd hdeed hnobody

/-- Whatever has happened to a call has left the graph and the time of the last results alone. -/
def Untouched (w : Course) (hs : List Happening) (i : Nat) : Prop :=
  ∀ before h after, hs = before ++ h :: after → h.caller? = some i →
    ((w.run before).step h).session.graph = (w.run before).session.graph ∧
      ((w.run before).step h).session.status.lastSynced =
        (w.run before).session.status.lastSynced

variable (settings : Settings) (p : Project) (clock : Moment) {hs : List Happening}

/-- After every run the current generation has been begun. -/
theorem begun_run (hs : List Happening) : ((ofProject settings p clock).run hs).Begun :=
  run_induction (begun_ofProject settings p clock) (fun hw hstep ↦ hw.step hstep) hs

/-- A sync that has not written back has not touched the graph and the time of the last sync. -/
theorem untouched_of_not_wroteBack
    (hnot : ∀ o, ⟨i, .wroteBack o⟩ ∉ ((ofProject settings p clock).run hs).past) :
    (ofProject settings p clock).Untouched hs i := by
  rintro before h after rfl hcaller
  refine (step_run settings p clock before h).untouched hcaller fun o hmem ↦ hnot o ?_
  have hgrown := past_run_grows settings p clock (before ++ [h]) after
  rw [run_concat, List.append_assoc] at hgrown
  exact hgrown.subset hmem

/-- **A sync that returns a failure leaves no trace but the failure.** It has changed neither the
graph nor the time of the last results; and if nobody has taken the lock since it did, the status
shows the failure and no sync under way, and the slot is free and says that a task has failed. -/
theorem failure_leaves_no_trace {e : Failure}
    (hreturns : ((ofProject settings p clock).run hs).Returns i (.synced (.error e))) :
    (ofProject settings p clock).Untouched (hs ++ [.turn i]) i ∧
      (¬ ((ofProject settings p clock).run hs).Overtaken i →
        (((ofProject settings p clock).run hs).step (.turn i)).session.Shows e) := by
  have hnumbered := numbered_run settings p clock hs
  have hslotted := slotted_run settings p clock hs
  have hseated := seated_run settings p clock hs
  have hrecorded := recorded_run settings p clock hs
  obtain ⟨stage, s, hi, hturn⟩ := hreturns.turn
  have hstep := step_of_ends hi hturn
  have change := SyncStage.change_of_ends hturn
  have hresult := SyncStage.result?_of_ends hturn
  refine ⟨untouched_of_not_wroteBack settings p clock fun o hmem ↦ ?_, fun hnot ↦ ?_⟩
  · rw [run_concat, hstep] at hmem
    rcases mem_append_deed.1 hmem with hmem | ⟨act, hact, hdeed⟩
    · exact (hrecorded.record hi).not_wroteBack o (mem_actsOf.2 hmem)
    · -- whoever writes back returns no failure
      obtain ⟨-, rfl⟩ := Deed.mk.inj hdeed
      rw [hact] at hresult
      cases hresult
  · rw [hstep]
    show s.Shows e
    have hfits := hslotted.fits hnumbered hseated hi
    rcases hslotted.of_error hseated (waiting_run settings p clock hs) hi hturn with
      ⟨t, g, rfl⟩ | ⟨t, g, rfl, huncancelled⟩
    · refine change.shows_of_answered (fun hsilent ↦ ?_) hfits
      rw [hsilent] at hresult
      cases hresult
    · obtain rfl := (begun_run settings p clock hs).generation?_eq hnumbered
        (succession_run settings p clock hs) hrecorded hi rfl hnot
      refine change.shows_of_returning hresult ?_ hfits
      have hstate := hslotted.leader ⟨hi, rfl, rfl⟩
      simpa [SyncStage.slotState?, Monitor.Outcome.state, huncancelled] using hstate.symm

/-- A sync follows a task whose server breaks the channel, and is about to return. -/
def brokenSync : List Happening :=
  [.sync, .turn 0, .answer 0 (taskAnswer "t"), .turn 0, .turn 0, .turn 0,
    .answer 0 (taskAnswer "t"), .turn 0, .turn 0, .serve (.fail 0 "gone"), .turn 0]

/-- A session whose only sync has lost the backend. -/
def brokenCourse : Course := (ofProject .default (.carrying .empty) default).run brokenSync

/-- The sync is about to return with the loss of the connection. -/
theorem returns_brokenCourse :
    brokenCourse.Returns 0 (.synced (.error (.transport (.request "gone")))) :=
  ⟨_, _, rfl, rfl⟩

/-- No other sync is there to overtake it. -/
theorem not_overtaken_brokenCourse : ¬ brokenCourse.Overtaken 0 := by
  intro hover
  have hi : brokenCourse.stage? 0 =
      some (.returning 1 1 (some (.error (.transport (.request "gone"))))) := rfl
  obtain ⟨g, hg, hlt⟩ := hover.generation_lt (succession_run _ _ _ brokenSync)
    (recorded_run _ _ _ brokenSync) hi
  obtain rfl := Option.some.inj hg
  exact Nat.lt_irrefl 1 hlt

/-- The failure of the channel is shown, the graph is as before and the slot is free. -/
theorem failure_of_brokenSync :
    brokenCourse.Returns 0 (.synced (.error (.transport (.request "gone")))) ∧
      (ofProject .default (.carrying .empty) default).Untouched (brokenSync ++ [.turn 0]) 0 ∧
      ¬ brokenCourse.Overtaken 0 ∧
      (brokenCourse.step (.turn 0)).session.Shows (.transport (.request "gone")) := by
  obtain ⟨huntouched, hshows⟩ :=
    failure_leaves_no_trace .default (.carrying .empty) default returns_brokenCourse
  exact ⟨returns_brokenCourse, huntouched, not_overtaken_brokenCourse,
    hshows not_overtaken_brokenCourse⟩

end Course

end GraphSession
