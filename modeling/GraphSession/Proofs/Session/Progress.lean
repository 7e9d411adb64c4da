import GraphSession.Proofs.Session.SlotState
import GraphSession.Proofs.Task.Ending

/-!
# A session never jams

Whatever has happened on a session before, and whoever was given up on the way: no operation on the
slot that a sync can come to is refused, no task has to be moved out of the slot by force, and a
sync in flight that has not submitted yet can still come to it (`never_jams`).

**What it takes** is only that the calls take their turns, that what they ask for is answered in
whatever way, and that time passes (`Happening.IsDriving`); nobody has to be given up, and no server
has to do anything. The sync moves up in line (`InLine.reaches_submits`): the head of the line can
always leave it (`reaches_passes`), since the task that it may have to wait for has been told to
end, and ends at the latest when its grace is over (`reaches_end`).
-/

namespace GraphSession

namespace SyncStage

variable {s s' : Session} {stage : SyncStage} {next : Option SyncStage} {a : Option Act}

/-- A ticket that is still in line has its owner. -/
theorem LockUse.manned {l l' : Lock} {t t' : Option Nat} {ticketOf : Nat → Option Nat} {i : Nat}
    (h : LockUse l t l' t') (hl : l.Serves ticketOf) (hi : ticketOf i = t)
    (hall : ∀ u ∈ l.line, ∃ j, ticketOf j = some u) :
    ∀ u ∈ l'.line, ∃ j, Function.update ticketOf i t' j = some u := by
  -- an owner who is not the one that moves keeps his ticket
  have hothers : ∀ {u}, u ∈ l.line → t ≠ some u →
      ∃ j, Function.update ticketOf i t' j = some u := by
    intro u hu hne
    obtain ⟨j, hj⟩ := hall u hu
    refine ⟨j, ?_⟩
    rw [Function.update_of_ne, hj]
    rintro rfl
    exact hne (hi.symm.trans hj)
  have hnodup : l.line.Nodup := hl.sorted.imp Nat.ne_of_lt
  intro u hu
  cases h with
  | keep =>
    rw [← hi, Function.update_eq_self]
    exact hall u hu
  | join =>
    rcases List.mem_append.1 hu with hu | hu
    · exact hothers hu nofun
    · rw [List.mem_singleton.1 hu]
      exact ⟨i, Function.update_self ..⟩
  | leave t =>
    obtain ⟨hne, hu⟩ := hnodup.mem_erase_iff.1 hu
    exact hothers hu fun ht ↦ hne (Option.some.inj ht).symm
  | rejoin t =>
    rcases List.mem_append.1 hu with hu | hu
    · obtain ⟨hne, hu⟩ := hnodup.mem_erase_iff.1 hu
      exact hothers hu fun ht ↦ hne (Option.some.inj ht).symm
    · rw [List.mem_singleton.1 hu]
      exact ⟨i, Function.update_self ..⟩

/-- A sync whose task ends comes back. -/
theorem turn_of_ends {g : Nat} {m : Monitor} {d : Desk} {o : Monitor.Outcome}
    (h : m.turn s.desk = .ends d o) : (following g m).turn s =
      .moves { s with desk := d, lock := s.lock.join.2 }
      (.returning s.lock.tickets g (some o)) := by
  rw [turn, turnFollowing, h]
  rfl

/-- A sync that follows a task goes on when its monitor does. -/
theorem turn_of_moves {g : Nat} {m m' : Monitor} {d : Desk} (h : m.turn s.desk = .moves d m') :
    (following g m).turn s = .moves { s with desk := d } (.following g m') := by
  rw [turn, turnFollowing, h]

/-- The turn of a sync that has come to the head of the line begins a generation. -/
theorem turn_of_isHeldBy {t : Nat} {w : Workflow} {pic : Option String}
    (held : s.lock.isHeldBy t = true) : (queued t w pic).turn s =
      .moves (beginGeneration s).2
        (.stopping t (s.generation + 1) w pic (beginGeneration s).1) := by
  rw [turn, turnQueued, if_pos held]
  rfl

/-- The turn of a sync whose predecessor has ended submits, when the slot is free. -/
theorem turn_of_beginSubmission {t g : Nat} {w : Workflow} {pic : Option String}
    {before : Option Nat} {d : Desk} (ended : hasEnded s.desk before = true)
    (h : s.desk.beginSubmission = .ok d) : (stopping t g w pic before).turn s =
      .moves { s with desk := { d with project := snapshot d.project w pic } }
        (.submitting t g (snapshot d.project w pic)) := by
  rw [turn, turnStopping, if_pos ended, h]

/-- Nobody waits with an answer in hand. -/
theorem turn_answered_ne_waits (s : Session) (t g : Nat) (r : Except Failure SubmitReply) :
    (answered t g r).turn s ≠ .waits := by
  rcases r with e | id | p
  · simp [turn, turnAnswered, fail]
  · simp only [turn, turnAnswered]
    split <;> simp [comeBack]
  · simp [turn, turnAnswered, comeBack]

/-- A sync that returns and has the lock never waits. -/
theorem turn_returning_ne_waits {t : Nat} (held : s.lock.isHeldBy t = true) (g : Nat)
    (o : Option Monitor.Outcome) : (returning t g o).turn s ≠ .waits := by
  simp only [turn, turnReturning, held, Bool.not_true, Bool.false_eq_true, if_false]
  split_ifs <;> simp

/-- Whoever has settled his submission, or has come back, leaves the line. -/
theorem Change.leaves (h : Change s stage s' next a) {t : Nat}
    (hstage : (∃ g r, stage = .answered t g r) ∨ ∃ g o, stage = .returning t g o) :
    s.lock.line.erase t <+: s'.lock.line := by
  rcases hstage with ⟨g, r, rfl⟩ | ⟨g, o, rfl⟩
  · cases h with
    | finish t g p s' released =>
      subst released
      exact List.prefix_append _ _
    | unfollow => exact List.prefix_append _ _
    | _ => exact List.prefix_refl _
  · cases h with
    | writeBack t o held ended =>
      rw [noteTimeout_eq]
      exact List.prefix_refl _
    | _ => exact List.prefix_refl _

end SyncStage

namespace Happening

/-- What happens while nobody interferes: calls take their turns, what they ask for is answered in
that way, and time passes. -/
def IsDriving (say : (r : Request) → Except Failure r.Answer) : Happening → Prop
  | turn _ | wait _ _ => True
  | answer _ f => f = say
  | _ => False

end Happening

namespace Course

variable {w w' : Course} {h : Happening} {i j : Nat}
  {say : (r : Request) → Except Failure r.Answer}

/-! ### Courses of a session -/

/-- A course of a session for a project. -/
def Genuine (w : Course) : Prop :=
  ∃ settings p clock hs, (ofProject settings p clock).run hs = w

/-- What happens in a genuine course leaves it genuine. -/
theorem Genuine.run (hw : w.Genuine) (hs : List Happening) : (w.run hs).Genuine := by
  obtain ⟨settings, p, clock, before, rfl⟩ := hw
  exact ⟨settings, p, clock, before ++ hs, run_append _ _ _⟩

/-- Every ticket in line has its owner. -/
def Manned (w : Course) : Prop :=
  ∀ u ∈ w.session.lock.line, ∃ j, w.ticketOf j = some u

theorem manned_ofProject (settings : Settings) (p : Project) (clock : Moment) :
    (ofProject settings p clock).Manned :=
  nofun

/-- No step leaves a ticket in line without its owner. -/
theorem Manned.step (hw : w.Manned) (hq : w.Queued) (hstep : Step w h w') : w'.Manned := by
  cases hstep with
  | enter session stages calls past =>
    rw [Manned, session, ticketOf_of_update stages]
    exact SyncStage.LockUse.manned (.keep none) hq.serves w.ticketOf_length hw
  | @change _ _ i stage next a caller before change stages calls past =>
    have hi : w.ticketOf i = stage.ticket? := ticketOf_of_stage? before
    rw [Manned, ticketOf_of_update stages]
    exact change.lockUse.manned hq.serves hi hw
  | aside session stages calls past =>
    rw [Manned, session.lock, ticketOf_congr stages]
    exact hw

/-- After every run each ticket in line has its owner. -/
theorem manned_run (settings : Settings) (p : Project) (clock : Moment) (hs : List Happening) :
    ((ofProject settings p clock).run hs).Manned :=
  run_induction (manned_ofProject settings p clock)
    (fun hw hstep ↦ hw.step (queued_run settings p clock _) hstep) hs

/-- Whoever follows a task finds its channel. -/
theorem Tuned.isConnected (ht : w.Tuned) (hr : w.Recorded) {g : Nat} {m : Monitor}
    (hi : w.stage? i = some (.following g m)) : m.IsConnected w.session.desk := by
  have hrecord := hr.record hi
  generalize hacts : w.actsOf i = acts at hrecord
  cases hrecord with
  | following t g a clock p m n texts =>
    have hfollowed : ⟨i, .followed m.ticket m.taskId n⟩ ∈ w.past := by
      rw [← mem_actsOf, hacts]
      simp [SyncStage.descent]
    exact (ht i g m _ _ n hi hfollowed).isConnected

/-- What every course of a session keeps to, as far as it matters to who gets on. -/
structure Sound (w : Course) : Prop where
  queued : w.Queued
  seated : w.Seated
  slotted : w.Slotted
  waiting : w.Waiting
  manned : w.Manned
  tuned : w.Tuned
  recorded : w.Recorded

/-- A genuine course has all the invariants. -/
theorem Genuine.sound (hw : w.Genuine) : w.Sound := by
  obtain ⟨settings, p, clock, hs, rfl⟩ := hw
  exact ⟨queued_run settings p clock hs, seated_run settings p clock hs,
    slotted_run settings p clock hs, waiting_run settings p clock hs,
    manned_run settings p clock hs, tuned_run settings p clock hs, recorded_run settings p clock hs⟩

/-! ### Driving a course -/

/-- A course can be driven to where something holds. -/
def Reaches (say : (r : Request) → Except Failure r.Answer) (w : Course) (P : Course → Prop) :
    Prop :=
  ∃ hs : List Happening, (∀ h ∈ hs, h.IsDriving say) ∧ P (w.run hs)

variable {P Q : Course → Prop}

/-- What holds already is reached. -/
theorem Reaches.refl (h : P w) : w.Reaches say P := ⟨[], nofun, h⟩

/-- To reach something is to reach what follows from it. -/
theorem Reaches.mono (h : w.Reaches say P) (hPQ : ∀ w', P w' → Q w') : w.Reaches say Q := by
  obtain ⟨hs, hdrive, hP⟩ := h
  exact ⟨hs, hdrive, hPQ _ hP⟩

/-- One step that drives reaches what holds after it. -/
theorem Reaches.of_step (hdrive : h.IsDriving say) (hP : P (w.step h)) : w.Reaches say P :=
  ⟨[h], fun _ hmem ↦ List.mem_singleton.1 hmem ▸ hdrive, hP⟩

/-- What is reached from wherever something is reached is reached. -/
theorem Reaches.trans (hw : w.Genuine) (hreach : w.Reaches say P)
    (hnext : ∀ w', w'.Genuine → P w' → w'.Reaches say Q) : w.Reaches say Q := by
  obtain ⟨hs, hdrive, hP⟩ := hreach
  obtain ⟨hs', hdrive', hQ⟩ := hnext _ (hw.run hs) hP
  refine ⟨hs ++ hs', fun h hmem ↦ ?_, run_append w hs hs' ▸ hQ⟩
  rcases List.mem_append.1 hmem with hmem | hmem
  · exact hdrive h hmem
  · exact hdrive' h hmem

theorem Genuine.step (hw : w.Genuine) (h : Happening) : (w.step h).Genuine := hw.run [h]

/-- Nothing is lost by a first step. -/
theorem Reaches.head (hdrive : h.IsDriving say) (hreach : (w.step h).Reaches say P) :
    w.Reaches say P := by
  obtain ⟨hs, hdrives, hP⟩ := hreach
  exact ⟨h :: hs, List.forall_mem_cons.2 ⟨hdrive, hdrives⟩, hP⟩

theorem stage?_self {next : Option SyncStage}
    (stages : w'.stage? = Function.update w.stage? i next) :
    w'.stage? i = next := by
  rw [stages, Function.update_self]

/-- After a turn on which a sync moves, the session and the place are those of the move. -/
theorem after_moves {stage stage' : SyncStage} {s : Session} (hi : w.stage? i = some stage)
    (hturn : stage.turn w.session = .moves s stage') :
    (w.step (.turn i)).session = s ∧
      (w.step (.turn i)).stage? = Function.update w.stage? i (some stage') := by
  rw [step_of_moves hi hturn]
  exact ⟨rfl, stage?_proceed hi s (some stage') _⟩

/-- After a turn on which a sync ends, it is in flight no more. -/
theorem after_ends {stage : SyncStage} {s : Session} {r : Except Failure Unit}
    (hi : w.stage? i = some stage) (hturn : stage.turn w.session = .ends s r) :
    (w.step (.turn i)).session = s ∧
      (w.step (.turn i)).stage? = Function.update w.stage? i none := by
  rw [step_of_ends hi hturn]
  exact ⟨rfl, stage?_proceed hi s none _⟩

/-- After an answer the session is the same, and the sync has the answer. -/
theorem after_question {stage : SyncStage} {q : Question SyncStage} (hi : w.stage? i = some stage)
    (hq : stage.question? = some q) (say : (r : Request) → Except Failure r.Answer) :
    (w.step (.answer i say)).session = w.session ∧
      (w.step (.answer i say)).stage? =
        Function.update w.stage? i (some (q.resume (say q.request))) := by
  rw [step_of_question hi hq]
  exact ⟨rfl, stage?_proceed hi w.session (some (q.resume (say q.request))) _⟩

/-! ### A task that was told to end does -/

/-- **Whoever follows a task that was told to end can come back,** and takes nobody's place in
line. -/
theorem reaches_end {g : Nat} {m : Monitor} (hw : w.Genuine)
    (hi : w.stage? i = some (.following g m)) (htold : m.isTold w.session.desk = true) :
    w.Reaches say fun w' ↦
      (∃ t o, w'.stage? = Function.update w.stage? i (some (.returning t g (some o)))) ∧
        w.session.lock.line <+: w'.session.lock.line := by
  induction hn : m.remaining w.session.desk using Nat.strongRecOn generalizing w m with
  | _ n ih =>
    subst hn
    have hconnected := hw.sound.tuned.isConnected hw.sound.recorded hi
    rcases Monitor.turn_of_isTold hconnected htold with
      ⟨d, o, hturn⟩ | ⟨d, m', hturn, htold', hless⟩ | ⟨-, ms, d, o, hturn⟩
    · -- it ends on this turn
      have hmoves := SyncStage.turn_of_ends (g := g) hturn
      obtain ⟨hsession, hstages⟩ := after_moves hi hmoves
      refine .of_step (h := .turn i) trivial ⟨⟨_, _, hstages⟩, ?_⟩
      rw [hsession]
      exact List.prefix_append _ _
    · -- it throws one frame away, and there are fewer left
      have hmoves := SyncStage.turn_of_moves (g := g) hturn
      obtain ⟨hsession, hstages⟩ := after_moves hi hmoves
      refine .head (h := .turn i) trivial ?_
      have hi' := stage?_self hstages
      have hreach := ih _ (by rw [hsession]; exact hless) (hw.step _) hi'
        (by rw [hsession]; exact htold')
        rfl
      simpa only [hstages, Function.update_idem, hsession] using hreach
    · -- once its grace is over it ends on its next turn
      refine .head (h := .wait ms w.session.clock) trivial ?_
      have hmoves := SyncStage.turn_of_ends (s := (w.step (.wait ms w.session.clock)).session)
        (g := g)
        hturn
      obtain ⟨hsession, hstages⟩ := after_moves (w := w.step (.wait ms w.session.clock)) hi hmoves
      refine .of_step (h := .turn i) trivial ⟨⟨_, _, hstages⟩, ?_⟩
      rw [hsession]
      exact List.prefix_append _ _

/-! ### The line moves -/

/-- A sync has submitted, and waits for the answer. -/
def Submits (w : Course) (i : Nat) : Prop :=
  ∃ t g p, w.stage? i = some (.submitting t g p)

/-- A sync waits in line, behind those tickets. -/
def InLine (w : Course) (i : Nat) (ahead : List Nat) : Prop :=
  ∃ t sw pic, w.stage? i = some (.queued t sw pic) ∧ ahead ++ [t] <+: w.session.lock.line

/-- Whoever waits in line stays where he is, whatever one of them does. -/
def Keeps (w : Course) (j : Nat) (w' : Course) : Prop :=
  ∀ i ahead, i ≠ j → w.InLine i ahead → w'.InLine i ahead

/-- Whoever waits behind the first in line moves up. -/
def Passes (w : Course) (j u : Nat) (w' : Course) : Prop :=
  ∀ i ahead, i ≠ j → w.InLine i (u :: ahead) → w'.InLine i ahead

theorem Keeps.trans {w'' : Course} (h : w.Keeps j w') (h' : w'.Keeps j w'') : w.Keeps j w'' :=
  fun i ahead hij hline ↦ h' i ahead hij (h i ahead hij hline)

theorem Keeps.passes {w'' : Course} {u : Nat} (h : w.Keeps j w') (h' : w'.Passes j u w'') :
    w.Passes j u w'' :=
  fun i ahead hij hline ↦ h' i ahead hij (h i _ hij hline)

/-- Who is in line still is when somebody else has moved, and nobody has left the line. -/
theorem keeps_of_update {next : Option SyncStage} {k : Nat}
    (stages : w'.stage? = Function.update w.stage? k next)
    (hk : k = j ∨ ∀ t sw pic, w.stage? k ≠ some (.queued t sw pic))
    (hline : w.session.lock.line <+: w'.session.lock.line) : w.Keeps j w' := by
  rintro i ahead hij ⟨t, sw, pic, hi, hahead⟩
  refine ⟨t, sw, pic, ?_, hahead.trans hline⟩
  rw [stages, Function.update_of_ne, hi]
  rintro rfl
  rcases hk with rfl | hk
  · exact hij rfl
  · exact hk t sw pic hi

/-- When the first in line leaves, all others move up. -/
theorem passes_of_update {next : Option SyncStage} {u : Nat}
    (stages : w'.stage? = Function.update w.stage? j next)
    (hline : w.session.lock.line.erase u <+: w'.session.lock.line) : w.Passes j u w' := by
  rintro i ahead hij ⟨t, sw, pic, hi, rest, hahead⟩
  refine ⟨t, sw, pic, by rw [stages, Function.update_of_ne hij, hi], ?_⟩
  refine List.IsPrefix.trans ?_ hline
  rw [← hahead, List.cons_append, List.cons_append, List.erase_cons_head]
  exact List.prefix_append _ _

/-- While a sync waits for the task before, this one can be brought to its end. -/
theorem reaches_free {t g : Nat} {sw : Workflow} {pic : Option String} {before : Option Nat}
    (hw : w.Genuine) (hj : w.stage? j = some (.stopping t g sw pic before)) :
    w.Reaches say fun w' ↦ w'.stage? j = some (.stopping t g sw pic before) ∧
      (∀ k g' m, w'.stage? k ≠ some (.following g' m)) ∧ w.Keeps j w' := by
  -- the task before is waited for only if somebody still follows it
  by_cases hnone : ∀ k g' m, w.stage? k ≠ some (.following g' m)
  · have hkeeps : w.Keeps j w := fun _ _ _ hline ↦ hline
    exact .refl ⟨hj, hnone, hkeeps⟩
  · push Not at hnone
    obtain ⟨k, g', m, hk⟩ := hnone
    obtain ⟨-, hcancelled⟩ := hw.sound.waiting j t g sw pic before hj k g' m hk
    have htold : m.isTold w.session.desk = true := Bool.or_eq_true_iff.2 (.inr hcancelled)
    have hjk : j ≠ k := by
      rintro rfl
      rw [hj] at hk
      cases hk
    refine (reaches_end hw hk htold).mono fun w' hended ↦ ?_
    obtain ⟨⟨t', o, hstages⟩, hline⟩ := hended
    refine ⟨?_, ?_, ?_⟩
    · rw [hstages, Function.update_of_ne hjk, hj]
    · -- nobody else had followed a task
      intro l g'' m' hl
      rcases stage?_cases hstages hl with ⟨-, hnext⟩ | ⟨hlk, hl⟩
      · cases hnext
      · exact hlk (hw.sound.seated.alone (seatOf_of_following hl) (seatOf_of_following hk))
    · refine keeps_of_update hstages (.inr fun _ _ _ hqueued ↦ ?_) hline
      rw [hk] at hqueued
      cases hqueued

/-- **Whoever has the lock comes to submit**, once the task before has ended. -/
theorem reaches_submits_of_stopping {t g : Nat} {sw : Workflow} {pic : Option String}
    {before : Option Nat} (hw : w.Genuine)
    (hj : w.stage? j = some (.stopping t g sw pic before)) :
    w.Reaches say fun w' ↦ (∃ p, w'.stage? j = some (.submitting t g p)) ∧ w.Keeps j w' := by
  refine (reaches_free hw hj).trans hw fun w' hw' hfree ↦ ?_
  obtain ⟨hj', hnone, hkeeps⟩ := hfree
  obtain ⟨-, hended⟩ := hw'.sound.seated.free hnone
  obtain ⟨d, hbegin⟩ : ∃ d, w'.session.desk.beginSubmission = .ok d :=
    ⟨_, hw'.sound.slotted.beginSubmission_eq hw'.sound.seated hnone⟩
  obtain ⟨hsession, hstages⟩ :=
    after_moves hj' (SyncStage.turn_of_beginSubmission (hended before) hbegin)
  have hsubmits := stage?_self hstages
  have hkeeps' : w'.Keeps j (w'.step (.turn j)) :=
    keeps_of_update hstages (.inl rfl) (hsession ▸ List.prefix_refl _)
  exact .of_step (h := .turn j) trivial ⟨⟨_, hsubmits⟩, hkeeps.trans hkeeps'⟩

/-- Whoever is the first in line takes the lock. -/
theorem reaches_submits_of_queued {t : Nat} {sw : Workflow} {pic : Option String} (hw : w.Genuine)
    (hj : w.stage? j = some (.queued t sw pic)) (held : w.session.lock.isHeldBy t = true) :
    w.Reaches say fun w' ↦ (∃ g p, w'.stage? j = some (.submitting t g p)) ∧ w.Keeps j w' := by
  obtain ⟨hsession, hstages⟩ := after_moves hj (SyncStage.turn_of_isHeldBy held)
  have hj' := stage?_self hstages
  have hkeeps : w.Keeps j (w.step (.turn j)) :=
    keeps_of_update hstages (.inl rfl) (hsession ▸ List.prefix_refl _)
  refine .head (h := .turn j) trivial ?_
  refine (reaches_submits_of_stopping (hw.step _) hj').mono fun w' hsubmits ↦ ?_
  obtain ⟨⟨p, hp⟩, hkeeps'⟩ := hsubmits
  exact ⟨⟨_, p, hp⟩, hkeeps.trans hkeeps'⟩

/-- Whoever has settled his submission, or has come back, gives the lock to the next. -/
theorem passes_of_turn {stage : SyncStage} {u : Nat} (hj : w.stage? j = some stage)
    (hstage : (∃ g r, stage = .answered u g r) ∨ ∃ g o, stage = .returning u g o)
    (hready : stage.turn w.session ≠ .waits) : w.Passes j u (w.step (.turn j)) := by
  cases hturn : stage.turn w.session with
  | waits => exact absurd hturn hready
  | moves s stage' =>
    obtain ⟨hsession, hstages⟩ := after_moves hj hturn
    exact passes_of_update hstages (hsession ▸ (SyncStage.change_of_moves hturn).leaves hstage)
  | ends s r =>
    obtain ⟨hsession, hstages⟩ := after_ends hj hturn
    exact passes_of_update hstages (hsession ▸ (SyncStage.change_of_ends hturn).leaves hstage)

/-- A submission is answered and settled. -/
theorem reaches_passes_of_submitting {u g : Nat} {p : Project}
    (hj : w.stage? j = some (.submitting u g p)) : w.Reaches say (w.Passes j u) := by
  obtain ⟨hsession, hstages⟩ := after_question hj rfl say
  have hj' := stage?_self hstages
  have hkeeps : w.Keeps j (w.step (.answer j say)) :=
    keeps_of_update hstages (.inl rfl) (hsession ▸ List.prefix_refl _)
  refine .head (h := .answer j say) rfl (.of_step (h := .turn j) trivial (hkeeps.passes ?_))
  exact passes_of_turn hj' (.inl ⟨_, _, rfl⟩) (SyncStage.turn_answered_ne_waits _ _ _ _)

/-- **The head of the line can always leave it.** -/
theorem reaches_passes {u : Nat} (hw : w.Genuine) (hj : w.ticketOf j = some u)
    (held : w.session.lock.isHeldBy u = true) : w.Reaches say (w.Passes j u) := by
  obtain ⟨stage, hstage, hticket⟩ := Option.bind_eq_some_iff.1 hj
  cases stage with
  | queued t sw pic =>
    obtain rfl := Option.some.inj hticket
    -- it begins, waits for the task before to end and submits, and the answer lets it leave
    refine (reaches_submits_of_queued hw hstage held).trans hw fun w' _ hsubmits ↦ ?_
    obtain ⟨⟨g, p, hp⟩, hkeeps⟩ := hsubmits
    exact (reaches_passes_of_submitting hp).mono fun _ hpasses ↦ hkeeps.passes hpasses
  | stopping t g sw pic before =>
    obtain rfl := Option.some.inj hticket
    refine (reaches_submits_of_stopping hw hstage).trans hw fun w' _ hsubmits ↦ ?_
    obtain ⟨⟨p, hp⟩, hkeeps⟩ := hsubmits
    exact (reaches_passes_of_submitting hp).mono fun _ hpasses ↦ hkeeps.passes hpasses
  | submitting t g p =>
    obtain rfl := Option.some.inj hticket
    exact reaches_passes_of_submitting hstage
  | answered t g r =>
    obtain rfl := Option.some.inj hticket
    -- any turn takes it out of the line
    have hready := SyncStage.turn_answered_ne_waits w.session t g r
    exact .of_step (h := .turn j) trivial (passes_of_turn hstage (.inl ⟨g, r, rfl⟩) hready)
  | returning t g o =>
    obtain rfl := Option.some.inj hticket
    have hready := SyncStage.turn_returning_ne_waits held g o
    exact .of_step (h := .turn j) trivial (passes_of_turn hstage (.inr ⟨g, o, rfl⟩) hready)
  | _ => cases hticket

/-- **Whoever waits in line comes to submit,** by induction on those ahead of him. -/
theorem InLine.reaches_submits {ahead : List Nat} (hw : w.Genuine) (hline : w.InLine i ahead) :
    w.Reaches say fun w' ↦ w'.Submits i := by
  induction ahead generalizing w with
  | nil =>
    obtain ⟨t, sw, pic, hi, rest, hahead⟩ := hline
    have held : w.session.lock.isHeldBy t = true := by simp [Lock.isHeldBy, ← hahead]
    refine (reaches_submits_of_queued hw hi held).mono fun w' hsubmits ↦ ?_
    obtain ⟨⟨g, p, hp⟩, -⟩ := hsubmits
    exact ⟨t, g, p, hp⟩
  | cons u ahead ih =>
    have hnext := hline
    obtain ⟨t, sw, pic, hi, rest, hahead⟩ := hline
    have held : w.session.lock.isHeldBy u = true := by simp [Lock.isHeldBy, ← hahead]
    obtain ⟨j, hj⟩ := hw.sound.manned u (by simp [← hahead])
    -- the head of the line is somebody else, since tickets ascend
    have hij : i ≠ j := by
      rintro rfl
      obtain rfl := Option.some.inj (hj.symm.trans (ticketOf_of_stage? hi))
      have hsorted := hw.sound.queued.serves.sorted
      rw [← hahead, List.cons_append, List.cons_append] at hsorted
      exact Nat.lt_irrefl u (List.rel_of_pairwise_cons hsorted (by simp))
    refine (reaches_passes hw hj held).trans hw fun w' hw' hpasses ↦ ?_
    exact ih hw' (hpasses i ahead hij hnext)

/-- What can be reached from where a sync gets to on its turn can be reached. -/
theorem Reaches.of_moves {stage stage' : SyncStage} {s : Session} (hw : w.Genuine)
    (hi : w.stage? i = some stage) (hturn : stage.turn w.session = .moves s stage')
    (hnext : ∀ w' : Course, w'.Genuine → w'.stage? i = some stage' → w'.Reaches say P) :
    w.Reaches say P := by
  obtain ⟨-, hstages⟩ := after_moves hi hturn
  have hi' := stage?_self hstages
  exact .head (h := .turn i) trivial (hnext _ (hw.step _) hi')

/-- A sync that has its picture gets as far as submitting. -/
theorem reaches_submits_of_captured {sw : Workflow} {a : Except Failure (Option String)}
    (hw : w.Genuine) (hi : w.stage? i = some (.captured sw a)) :
    w.Reaches say fun w' ↦ w'.Submits i := by
  refine .of_moves hw hi rfl fun w' hw' hi' ↦ ?_
  -- it is in line now, wherever
  have hmem := hw'.sound.queued.serves.inLine (ticketOf_of_stage? hi')
  obtain ⟨ahead, rest, hsplit⟩ := List.append_of_mem hmem
  have hline : w'.InLine i ahead := ⟨_, _, _, hi', rest, by simp [hsplit]⟩
  exact hline.reaches_submits hw'

/-- A sync that waits for its picture gets as far as submitting, whatever the picture is. -/
theorem reaches_submits_of_capturing {sw : Workflow} (hw : w.Genuine)
    (hi : w.stage? i = some (.capturing sw)) : w.Reaches say fun w' ↦ w'.Submits i := by
  obtain ⟨-, hstages⟩ := after_question hi rfl say
  have hi' := stage?_self hstages
  exact .head (h := .answer i say) rfl (reaches_submits_of_captured (hw.step _) hi')

/-- **A sync that has not submitted yet can still come to it,** wherever it is. -/
theorem Genuine.reaches_submits (hw : w.Genuine) {stage : SyncStage} (hi : w.stage? i = some stage)
    (hsub : stage.hasSubmitted = false) : w.Reaches say fun w' ↦ w'.Submits i := by
  cases stage with
  | called =>
    exact .of_moves hw hi rfl fun w' hw' hi' ↦ reaches_submits_of_capturing hw' hi'
  | capturing sw => exact reaches_submits_of_capturing hw hi
  | captured sw a => exact reaches_submits_of_captured hw hi
  | queued t sw pic =>
    have hmem := hw.sound.queued.serves.inLine (ticketOf_of_stage? hi)
    obtain ⟨ahead, rest, hsplit⟩ := List.append_of_mem hmem
    have hline : w.InLine i ahead := ⟨t, sw, pic, hi, rest, by simp [hsplit]⟩
    exact hline.reaches_submits hw
  | stopping t g sw pic before =>
    refine (reaches_submits_of_stopping hw hi).mono fun w' hsubmits ↦ ?_
    obtain ⟨⟨p, hp⟩, -⟩ := hsubmits
    exact ⟨t, g, p, hp⟩
  | _ => cases hsub

/-! ### Nothing is refused -/

/-- **What a sync returns as a failure** is what the backend has answered, or its channel has
failed. -/
theorem Slotted.of_returns (hw : w.Slotted) (hs : w.Seated) (hwait : w.Waiting) (hr : w.Recorded)
    (hreport : w.Reported) {e : Failure} (hreturns : w.Returns i (.synced (.error e))) :
    ⟨i, .replied (.error e)⟩ ∈ w.past ∨
      ⟨i, .ended (.error e)⟩ ∈ w.past ∧ ∃ cause, e = .transport cause := by
  obtain ⟨stage, s, hi, hturn⟩ := hreturns.turn
  rcases hw.of_error hs hwait hi hturn with ⟨t, g, rfl⟩ | ⟨t, g, rfl, huncancelled⟩
  · have hrecord := hr.record hi
    generalize hacts : w.actsOf i = acts at hrecord
    cases hrecord
    refine .inl (mem_actsOf.1 ?_)
    simp [hacts]
  · obtain ⟨hcancelled | hcause, hended⟩ := hreport i t g _ hi
    · rw [huncancelled] at hcancelled
      cases hcancelled
    · exact .inr ⟨hended, hcause⟩

/-- What holds of a session that does not jam. -/
structure Unjammed (w : Course) : Prop where
  /-- Whoever has the lock may submit as soon as he need not wait for the task before. -/
  begins : ∀ i t g sw pic before, w.stage? i = some (.stopping t g sw pic before) →
    SyncStage.hasEnded w.session.desk before = true → ∃ d, w.session.desk.beginSubmission = .ok d
  /-- A submission may be settled either way, and may become a task. -/
  settles : ∀ i t g r, w.stage? i = some (.answered t g r) →
    ∀ d : Desk, d.slot = w.session.desk.slot →
      (∃ d', d.finishSubmission .errored = .ok d') ∧
      (∃ d', d.finishSubmission .completed = .ok d') ∧
        ∀ id, ∃ m d', Monitor.register d id = .ok (m, d')
  /-- A task may end in every way, so that nobody has to move the state of the slot by force. -/
  ends : ∀ i g m, w.stage? i = some (.following g m) →
    ∀ d : Desk, d.slot = w.session.desk.slot →
      ∀ o, o.isTerminal = true → ∃ d', d.transition o = .ok d' ∧ d.force o = d'
  /-- A sync returns what the backend has answered it, or a failure of its channel; so it never
  comes up with a task in the slot, or with a transition that is not allowed, by itself. -/
  returns : ∀ i e, w.Returns i (.synced (.error e)) →
    ⟨i, .replied (.error e)⟩ ∈ w.past ∨
      ⟨i, .ended (.error e)⟩ ∈ w.past ∧ ∃ cause, e = .transport cause
  /-- A sync in flight that has not submitted yet can come to it, whatever the outside answers. -/
  submits : ∀ say i stage, w.stage? i = some stage → stage.hasSubmitted = false →
    w.Reaches say fun w' ↦ w'.Submits i

/-- **A session never jams,** whatever has happened on it. -/
theorem never_jams (settings : Settings) (p : Project) (clock : Moment) (hs : List Happening) :
    Unjammed ((ofProject settings p clock).run hs) := by
  have hslotted := slotted_run settings p clock hs
  have hseated := seated_run settings p clock hs
  have hwaiting := waiting_run settings p clock hs
  have hfits : ∀ {i stage}, ((ofProject settings p clock).run hs).stage? i = some stage →
      stage.Fits ((ofProject settings p clock).run hs).session.desk :=
    fun hi ↦ hslotted.fits (numbered_run settings p clock hs) hseated hi
  refine ⟨fun i t g sw pic before hi hended ↦ ?_, fun i t g r hi d hd ↦ ⟨?_, ?_, fun id ↦ ?_⟩,
    fun i g m hi d hd o ho ↦ ?_, fun i e hreturns ↦ ?_, fun say i stage hi hsub ↦ ?_⟩
  · exact ⟨_, hslotted.beginSubmission_eq hseated (hwaiting.not_following hseated hi hended)⟩
  · exact ⟨_, ((hfits hi).of_slot hd).finishSubmission_eq rfl rfl⟩
  · exact ⟨_, ((hfits hi).of_slot hd).finishSubmission_eq rfl rfl⟩
  · exact ⟨_, _, ((hfits hi).of_slot hd).register_eq rfl id⟩
  · exact ⟨_, ((hfits hi).of_slot hd).transition_eq rfl ho, d.force_eq o⟩
  · exact hslotted.of_returns hseated hwaiting (recorded_run settings p clock hs)
      (reported_run settings p clock hs) hreturns
  · exact Genuine.reaches_submits ⟨settings, p, clock, hs, rfl⟩ hi hsub

end Course

end GraphSession
