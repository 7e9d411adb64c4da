import GraphSession.Proofs.Session.Order
import GraphSession.Proofs.Session.WriteBack

/-!
# The problem in the status

The message of the status is what the deeds of the syncs have made of it (`message_run`): a picture
clears it or makes it a problem, a failure and a task that timed out make it a problem, and nothing
else touches it.

**A sync clears the message before it has the lock.** So the failure of another sync may come in
between: it finds the message cleared, records its problem, and gives up the lock to the sync that
waits. This one does not clear the message again, and the problem is still shown when it has written
its results back (`showsOld_iff`). That is the only way in which an old problem survives: once a
sync has the lock, no other can fail (`Course.Settled`), and whoever gets a picture clears the
message.
-/

namespace GraphSession

/-- What deeds make of a message. -/
def noted (past : List Deed) (m : Option String) : Option String :=
  past.foldl (fun m d ↦ d.act.note?.getD m) m

/-- What is noted of a longer past is noted of its parts in turn. -/
theorem noted_append (past past' : List Deed) (m : Option String) :
    noted (past ++ past') m = noted past' (noted past m) :=
  List.foldl_append

/-- Deeds that touch no message leave it. -/
theorem noted_of_silent {past : List Deed} (h : ∀ d ∈ past, d.act.note? = none)
    (m : Option String) : noted past m = m := by
  induction past generalizing m with
  | nil => rfl
  | cons d rest ih =>
    have hd : d.act.note?.getD m = m := by rw [h d List.mem_cons_self, Option.getD_none]
    rw [noted, List.foldl_cons, hd]
    exact ih (fun d hd ↦ h d (List.mem_cons_of_mem _ hd)) m

namespace Act

/-- What touches the message. -/
theorem note?_eq_none {a : Act} (hcapture : a.isCapture = false) (hclosing : a.isClosing = false) :
    a.note? = none := by
  cases a with
  | captured | failed | wroteBack => simp_all [isCapture, isClosing]
  | _ => rfl

/-- A capture always touches the message, to set it or to clear it. -/
theorem isCapture_of_note? {a : Act} (h : a.note? = none) : a.isCapture = false := by
  cases a with
  | captured => cases h
  | _ => rfl

end Act

namespace SyncStage

variable {s s' : Session} {stage stage' : SyncStage} {next : Option SyncStage} {act : Act}

/-- A sync that closes does not go on, and is of the current generation: it has the lock in hand, or
comes back without having been overtaken. -/
theorem Change.of_isClosing (h : Change s stage s' next (some act)) (hact : act.isClosing = true) :
    next = none ∧ ((∃ t, stage.held? = some t) ∨ stage.generation? = some s.generation) := by
  cases h with
  | refuse t | reject t => exact ⟨rfl, .inl ⟨t, rfl⟩⟩
  | writeBack | fail => exact ⟨rfl, .inr rfl⟩
  | _ => cases hact

end SyncStage

namespace Course

variable {w w' : Course} {h : Happening} {i : Nat}

/-! ### The message -/

/-- One step changes the message as the deed in it says. -/
theorem message_step (hw : w.session.status.message = noted w.past none) (hstep : Step w h w') :
    w'.session.status.message = noted w'.past none := by
  cases hstep with
  | enter session stages calls past => rw [session, past, hw]
  | @change _ _ i stage next a caller before change stages calls past =>
    rw [change.message, past, noted_append, hw]
    cases a <;> rfl
  | aside session stages calls past => rw [session.message, past, hw]

/-- **The message is what the deeds have made of it.** -/
theorem message_run (settings : Settings) (p : Project) (clock : Moment) (hs : List Happening) :
    ((ofProject settings p clock).run hs).session.status.message =
      noted ((ofProject settings p clock).run hs).past none :=
  run_induction (P := fun w ↦ w.session.status.message = noted w.past none) rfl
    (fun hw hstep ↦ message_step hw hstep) hs

/-! ### Nobody else fails -/

/-- **Only the sync of the current generation closes.** -/
theorem Numbered.eq_of_isClosing (hn : w.Numbered) {stage stage' : SyncStage}
    {next : Option SyncStage} {act : Act} {k : Nat} (hi : w.stage? i = some stage)
    (hgen : stage.generation? = some w.session.generation) (hk : w.stage? k = some stage')
    (change : stage'.Change w.session w'.session next (some act)) (hact : act.isClosing = true) :
    i = k := by
  obtain ⟨-, ⟨t, hheld⟩ | hcurrent⟩ := change.of_isClosing hact
  · exact hn.unique hi hgen hk (hn.current hk hheld)
  · exact hn.unique hi hgen hk hcurrent

/-- As long as a sync of the current generation is in flight, no sync has closed since it began. -/
def Settled (w : Course) : Prop :=
  ∀ i stage, w.stage? i = some stage → stage.generation? = some w.session.generation →
    w.past.Pairwise fun d e ↦ ∀ c, d.act = .began w.session.generation c → e.act.isClosing = false

theorem settled_ofProject (settings : Settings) (p : Project) (clock : Moment) :
    (ofProject settings p clock).Settled :=
  nofun

/-- One step keeps the past settled: nobody closes a sync that is still the current one. -/
theorem Settled.step (hw : w.Settled) (hn : w.Numbered) (hsucc : w.Succession)
    (hstep : Step w h w') : w'.Settled := by
  intro i stage hi hgen
  cases hstep with
  | enter session stages calls past =>
    rw [session] at hgen ⊢
    rw [past]
    rcases stage?_of_enter stages hi with rfl | hi
    · cases hgen
    · exact hw i stage hi hgen
  | @change _ _ k stage' next a caller before change stages calls past =>
    rw [past, pairwise_append_deed]
    rcases change.numbering with ⟨hsame, hstays⟩ | ⟨t, sw, pic, prev, rfl, ht, hnew, rfl⟩
    · rw [hsame] at hgen ⊢
      rcases stage?_cases stages hi with ⟨rfl, rfl⟩ | ⟨hik, hi⟩
      · -- a sync that is still in flight has not closed
        refine ⟨hw i stage' before ((hstays _ rfl).1 ▸ hgen), ?_⟩
        rintro act rfl d hd c hc
        by_contra hclosing
        have hnone := (change.of_isClosing (by simpa using hclosing)).1
        cases hnone
      · refine ⟨hw i stage hi hgen, ?_⟩
        rintro act rfl d hd c hc
        by_contra hclosing
        -- any other sync that closes has been overtaken
        exact hik (hn.eq_of_isClosing hi hgen before change (by simpa using hclosing))
    · -- nobody has begun the generation before
      have hfresh : ∀ d ∈ w.past, ∀ c, d.act ≠ .began w'.session.generation c := by
        rintro ⟨j, act⟩ hd c rfl
        have hle := hsucc.generation_le hd
        omega
      refine ⟨List.pairwise_of_forall_sublist fun hsub c hc ↦ ?_, fun act hact d hd c hc ↦ ?_⟩
      · exact absurd hc (hfresh _ (hsub.subset List.mem_cons_self) c)
      · exact absurd hc (hfresh d hd c)
  | aside session stages calls past =>
    rw [session.generation] at hgen ⊢
    rw [past]
    exact hw i stage (stages ▸ hi) hgen

/-- After every run the past is settled. -/
theorem settled_run (settings : Settings) (p : Project) (clock : Moment) (hs : List Happening) :
    ((ofProject settings p clock).run hs).Settled :=
  run_induction (settled_ofProject settings p clock)
    (fun hw hstep ↦ hw.step (numbered_run settings p clock _) (succession_run settings p clock _)
      hstep) hs

/-! ### Old problems -/

/-- The last that touched the message is the failure of a sync, and a problem, and the failure was
before this sync took the lock. -/
def OldProblem (w : Course) (i : Nat) (e : Failure) : Prop :=
  (Operation.sync.notice? e).isSome = true ∧
    ∃ past z since, w.past = past ++ ⟨z, .failed e⟩ :: since ∧
      (∀ d ∈ since, d.act.note? = none) ∧ ∃ g c, ⟨i, .began g c⟩ ∈ since

/-- The status shows the problem of a sync that had failed before this one took the lock. -/
def ShowsOld (w : Course) (i : Nat) : Prop :=
  ∃ e, w.OldProblem i e ∧ w.session.status.message = Operation.sync.notice? e

/-- Some sync has failed with a problem between the moment when this one got its picture and the
moment when it took the lock; nothing touched the message from the failure to that moment, and
nobody has got a picture since. -/
def FailedInLine (w : Course) (i : Nat) : Prop :=
  ∃ past t a inLine z e free g c since,
    w.past = past ++ ⟨i, .captured t a⟩ :: inLine ++ ⟨z, .failed e⟩ :: free ++
      ⟨i, .began g c⟩ :: since ∧
    (Operation.sync.notice? e).isSome = true ∧ (∀ d ∈ free, d.act.note? = none) ∧
    ∀ d ∈ since, d.act.isCapture = false

/-- What touched the message last is in the message. -/
theorem OldProblem.message {e : Failure} (hw : w.OldProblem i e)
    (hmessage : w.session.status.message = noted w.past none) :
    w.session.status.message = Operation.sync.notice? e := by
  obtain ⟨-, past, z, since, hpast, hsilent, -⟩ := hw
  rw [hmessage, hpast, noted_append]
  exact noted_of_silent hsilent _

/-- A deed that does not touch the message leaves an old problem where it is. -/
theorem oldProblem_of_silent {act : Act} {e : Failure} (hpast : w'.past = w.past ++ [⟨i, act⟩])
    (hnote : act.note? = none) (hbegan : ∀ g c, act ≠ .began g c) :
    w'.OldProblem i e ↔ w.OldProblem i e := by
  refine and_congr_right fun _ ↦ ⟨?_, ?_⟩
  · rintro ⟨past, z, since, hw', hsilent, g, c, hmem⟩
    obtain ⟨last, d, rfl⟩ : ∃ last d, since = last ++ [d] :=
      ⟨_, _, (List.dropLast_concat_getLast (List.ne_nil_of_mem hmem)).symm⟩
    rw [hpast, ← List.cons_append, ← List.append_assoc] at hw'
    obtain ⟨hw, hd⟩ := List.append_inj' hw' rfl
    obtain rfl := List.singleton_inj.1 hd
    refine ⟨past, z, last, hw, fun d hd ↦ hsilent d (List.mem_append_left _ hd), g, c, ?_⟩
    rcases List.mem_append.1 hmem with hmem | hmem
    · exact hmem
    · have hact : Act.began g c = act := congrArg Deed.act (List.mem_singleton.1 hmem)
      exact absurd hact.symm (hbegan g c)
  · rintro ⟨past, z, since, hw, hsilent, g, c, hmem⟩
    refine ⟨past, z, since ++ [⟨i, act⟩], by rw [hpast, hw]; simp, fun d hd ↦ ?_, g, c,
      List.mem_append_left _ hmem⟩
    rcases List.mem_append.1 hd with hd | hd
    · exact hsilent d hd
    · rw [List.mem_singleton.1 hd]
      exact hnote

/-- **A sync that comes back finds an old problem exactly if it came up while the sync was in
line.** -/
theorem exists_oldProblem_iff (hr : w.Recorded) (hs : w.Settled) {t : Nat}
    {o : Option Monitor.Outcome} (hi : w.stage? i = some (.returning t w.session.generation o)) :
    (∃ e, w.OldProblem i e) ↔ w.FailedInLine i := by
  constructor
  · rintro ⟨e, he, past, z, since, hw, hsilent, g, c, hmem⟩
    -- the picture of the sync would have touched the message, so it came before the failure
    obtain ⟨t, a, ha⟩ := (hr.record hi).exists_captured
    have hcaptured := mem_actsOf.1 ha
    rw [hw, List.mem_append, List.mem_cons] at hcaptured
    rcases hcaptured with hcaptured | hcaptured | hcaptured
    · obtain ⟨before, inLine, rfl⟩ := List.append_of_mem hcaptured
      obtain ⟨free, since, rfl⟩ := List.append_of_mem hmem
      refine ⟨before, t, a, inLine, z, e, free, g, c, since, by simp [hw], he,
        fun d hd ↦ hsilent d (List.mem_append_left _ hd), fun d hd ↦ ?_⟩
      exact Act.isCapture_of_note?
        (hsilent d (List.mem_append_right _ (List.mem_cons_of_mem _ hd)))
    · cases congrArg Deed.act hcaptured
    · cases hsilent _ hcaptured
  · rintro ⟨past, t, a, inLine, z, e, free, g, c, since, hw, he, hfree, hsince⟩
    have hbegan : ⟨i, .began g c⟩ ∈ w.past := by simp [hw]
    obtain rfl := Option.some.inj ((hr.record hi).generation? (mem_actsOf.2 hbegan))
    refine ⟨e, he, past ++ ⟨i, .captured t a⟩ :: inLine, z,
      free ++ ⟨i, .began w.session.generation c⟩ :: since, by simp [hw], fun d hd ↦ ?_,
      w.session.generation, c, by simp⟩
    rcases List.mem_append.1 hd with hd | hd
    · exact hfree d hd
    · rcases List.mem_cons.1 hd with rfl | hd
      · rfl
      · -- nobody has closed since the sync took the lock
        have hpair : [⟨i, .began w.session.generation c⟩, d].Sublist w.past := by
          rw [hw]
          exact ((List.singleton_sublist.2 hd).cons_cons _).trans (List.sublist_append_right _ _)
        exact Act.note?_eq_none (hsince d hd) ((hs i _ hi rfl).forall_sublist hpair c rfl)

variable (settings : Settings) (p : Project) (clock : Moment) (hs : List Happening) (h : Happening)

/-- **When an old problem is still shown.** A sync that has written back the results of a task that
completed, or of a project that was run at once, leaves the problem of an earlier sync in the status
exactly if that sync had failed while this one was waiting for the lock, its picture in hand, and
nobody has got a picture since. -/
theorem showsOld_iff {i : Nat} {o : Option Monitor.Outcome}
    (inTime : ∀ r, o = some (.ok r) → r.state ≠ .timedOut)
    (hdeed : (((ofProject settings p clock).run hs).step h).past =
      ((ofProject settings p clock).run hs).past ++ [⟨i, .wroteBack o⟩]) :
    (((ofProject settings p clock).run hs).step h).ShowsOld i ↔
      ((ofProject settings p clock).run hs).FailedInLine i := by
  obtain ⟨stage, next, hi, -, change⟩ := (step_run settings p clock hs h).of_deed hdeed
  obtain ⟨-, ⟨t, rfl⟩, ho⟩ := change.of_wroteBack
  have hnote : (Act.wroteBack o).note? = none := by
    rcases o with _ | e | r
    · rfl
    · rfl
    · rw [Act.note?, if_neg (inTime r rfl)]
  have hmessage := message_run settings p clock (hs ++ [h])
  rw [ofProject, run_concat] at hmessage
  rw [← exists_oldProblem_iff (recorded_run settings p clock hs) (settled_run settings p clock hs)
    hi]
  refine exists_congr fun e ↦ ?_
  rw [← oldProblem_of_silent hdeed hnote (by simp)]
  exact ⟨And.left, fun hold ↦ ⟨hold, hold.message hmessage⟩⟩

/-- A sync is about to write back: it got its picture while another had the lock, which failed
then. -/
def recoveredCourse : Course :=
  (ofProject .default (.carrying .empty) default).run
    [.sync, .sync, .turn 0, .answer 0 noBackend, .turn 0, .turn 0, .turn 0, .turn 1,
      .answer 1 noBackend, .turn 1, .answer 0 noBackend, .turn 0, .turn 1, .turn 1,
      .answer 1 (directAnswer (.carrying .empty)), .turn 1]

theorem past_recoveredCourse_step :
    (recoveredCourse.step (.turn 1)).past = recoveredCourse.past ++ [⟨1, .wroteBack none⟩] := rfl

/-- The older sync has failed while the later one was in line. -/
theorem failedInLine_recoveredCourse : recoveredCourse.FailedInLine 1 := by
  refine ⟨recoveredCourse.past.take 5, 1, .ok none,
    [⟨0, .replied (.error (.transport .connectionClosed))⟩], 0, .transport .connectionClosed, [],
    2, default, recoveredCourse.past.drop 9, ?_, rfl, nofun, ?_⟩
  · rfl
  · have hsince : (recoveredCourse.past.drop 9).all fun d ↦ !d.act.isCapture := rfl
    simpa using hsince

/-- The sync has written back, and the problem of the other is still shown. -/
theorem showsOld_recoveredCourse :
    (∀ r : TaskReport, (none : Option Monitor.Outcome) = some (.ok r) → r.state ≠ .timedOut) ∧
      (recoveredCourse.step (.turn 1)).ShowsOld 1 := by
  have inTime : ∀ r : TaskReport, (none : Option Monitor.Outcome) = some (.ok r) →
      r.state ≠ .timedOut := nofun
  exact ⟨inTime, (showsOld_iff .default (.carrying .empty) default _ (.turn 1) inTime
    past_recoveredCourse_step).2 failedInLine_recoveredCourse⟩

end Course

end GraphSession
