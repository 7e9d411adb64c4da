import GraphSession.Proofs.Session.Content

/-!
# What the slot says

The state of the slot follows the sync that leads: `submitting` until its submission is settled,
`streaming` while it follows its task, and then how the task has ended (`SyncStage.slotState?`). A
sync that is given up in between leaves the state where it was, and the next one starts from there.

* `SyncStage.Fits`: what a sync may count on when it touches the slot. Every operation on the slot
  that a sync can come to is allowed then: to settle a submission (`Fits.finishSubmission_eq`), to
  register a task (`Fits.register_eq`), and to end it (`Fits.transition_eq`).
* `Course.Slotted`: the state is the one of the sync that leads, and it says that a task is
  streaming exactly while there is one in the slot.
* `Course.Waiting`: whoever has the lock and waits for the task before waits for the task in the
  slot, which has been told to end. So when the wait is over the slot is free
  (`Waiting.beginSubmission_eq`).
* `Course.Reported`: a sync comes back with what its monitor has reported, and with nothing else,
  since no registration is ever refused.
-/

namespace GraphSession

namespace SyncStage

/-- Whether the submission of a sync is not settled yet. -/
def isSubmitting : SyncStage → Bool
  | submitting _ _ _ | answered _ _ _ => true
  | _ => false

/-- The state of the slot while a sync leads, by the place the sync has got to. -/
def slotState? : SyncStage → Option TaskState
  | submitting _ _ _ | answered _ _ _ => some .submitting
  | following _ _ => some .streaming
  | returning _ _ none => some .completed
  | returning _ _ (some o) => some o.state
  | _ => none

/-- What a sync may count on, if it has to do with the slot. -/
structure Fits (stage : SyncStage) (d : Desk) : Prop where
  streaming : d.state = .streaming ↔ d.active.isSome = true
  submitting : stage.isSubmitting = true → d.state = .submitting
  seated : ∀ a, stage.seat? = some a → d.active = some a ∧ d.slot.unfinished = [a.ticket]

variable {s s' : Session} {stage stage' : SyncStage} {next : Option SyncStage} {a : Option Act}
  {d : Desk}

/-- Nothing but the slot counts. -/
theorem Fits.of_slot {d' : Desk} (h : stage.Fits d) (hslot : d'.slot = d.slot) : stage.Fits d' := by
  have hstate : d'.state = d.state := congrArg Slot.state hslot
  have hactive : d'.active = d.active := congrArg Slot.active hslot
  exact ⟨hstate ▸ hactive ▸ h.streaming, hstate ▸ h.submitting, hactive ▸ hslot ▸ h.seated⟩

/-- Nobody has a task while a submission is not settled. -/
theorem Fits.active_eq_none (h : stage.Fits d) (hsub : stage.isSubmitting = true) :
    d.active = none := by
  by_contra hactive
  have hstreaming := h.streaming.2 (Option.isSome_iff_ne_none.2 hactive)
  rw [h.submitting hsub] at hstreaming
  cases hstreaming

/-- **A submission can be settled**: it completes at once, or has failed. -/
theorem Fits.finishSubmission_eq (h : stage.Fits d) (hsub : stage.isSubmitting = true)
    {o : TaskState} (ho : TaskState.submitting.canBecome o = true) :
    d.finishSubmission o = .ok { d with state := o } := by
  have hstate := h.submitting hsub
  exact Desk.transition_eq (by rw [hstate]; rfl) (by rw [hstate, ho])

/-- **The task that the backend has started can be registered.** -/
theorem Fits.register_eq (h : stage.Fits d) (hsub : stage.isSubmitting = true) (id : String) :
    Monitor.register d id = .ok (.registered id d.tickets, d.occupied id) := by
  rw [Monitor.register, Desk.register_eq (h.active_eq_none hsub) (h.submitting hsub)]
  rfl

/-- **A task can end in every way**, so its end never has to move the state by force. -/
theorem Fits.transition_eq (h : stage.Fits d) (hseat : stage.seat?.isSome = true) {o : TaskState}
    (ho : o.isTerminal = true) : d.transition o = .ok { d with state := o } := by
  obtain ⟨t, ht⟩ := Option.isSome_iff_exists.1 hseat
  have hstate : d.state = .streaming := h.streaming.2 (by rw [(h.seated t ht).1]; rfl)
  refine Desk.transition_eq (by rw [hstate]; rfl) ?_
  rw [hstate]
  cases o <;> first | rfl | cases ho

/-- A sync that ends its submission leaves the state it names in the slot. -/
theorem endSubmission_eq {o : TaskState} (h : stage.Fits s.desk) (hsub : stage.isSubmitting = true)
    (ho : TaskState.submitting.canBecome o = true) :
    endSubmission s o = s.onDesk fun d ↦ { d with state := o } := by
  rw [endSubmission, Session.onDesk, h.finishSubmission_eq hsub ho]
  rfl

/-- The slot after the end of a task that a sync has followed. -/
theorem Fits.slot_of_finishes {g : Nat} {m : Monitor} {o : Monitor.Outcome} {d' : Desk}
    (h : (following g m).Fits d) (finishes : Monitor.Finishes d m o d') :
    d'.slot = ⟨o.state, none, []⟩ := by
  obtain ⟨hactive, hunfinished⟩ := h.seated _ rfl
  exact finishes.slot.trans (Desk.slot_finish hactive hunfinished _ _)

/-- A desk says that a task is streaming exactly while there is one. -/
theorem streaming_iff_of_slot {d' : Desk} {slot : Slot} (h : d'.slot = slot)
    (hslot : slot.state = .streaming ↔ slot.active.isSome = true) :
    d'.state = .streaming ↔ d'.active.isSome = true := by
  subst h
  exact hslot

/-- **The state goes with the place of the sync that leads.** -/
theorem Change.slotState (h : Change s stage s' (some stage') a)
    (hsub : stage'.hasSubmitted = true) (hfits : stage.Fits s.desk) :
    stage'.slotState? = some s'.desk.state := by
  cases h with
  | submit t g w pic before d free =>
    obtain ⟨-, rfl⟩ := Desk.eq_of_beginSubmission free
    rfl
  | reply => exact congrArg some (hfits.submitting rfl).symm
  | finish t g p s' released =>
    -- the backend has run the project at once, and the slot is completed
    subst released
    have hfits' : Fits _ (s.onProject fun _ ↦ p).desk := hfits.of_slot rfl
    rw [endSubmission_eq hfits' rfl rfl]
    rfl
  | follow t g id m d registered =>
    obtain ⟨-, rfl, rfl⟩ := Monitor.eq_of_register registered
    rfl
  | unfollow t g id e taken =>
    rw [hfits.register_eq rfl] at taken
    cases taken
  | take g m m' d text intake follows =>
    -- while a task is followed the slot is streaming
    have hstate : d.state = s.desk.state := congrArg Slot.state follows.slot
    exact congrArg some
      (hstate.trans (hfits.streaming.2 (by rw [(hfits.seated _ rfl).1]; rfl))).symm
  | pass g m m' d follows =>
    have hstate : d.state = s.desk.state := congrArg Slot.state follows.slot
    exact congrArg some
      (hstate.trans (hfits.streaming.2 (by rw [(hfits.seated _ rfl).1]; rfl))).symm
  | comeBack g m d o finishes told =>
    exact congrArg some (congrArg Slot.state (hfits.slot_of_finishes finishes)).symm
  | _ => cases hsub

/-- **The state says whether there is a task in the slot**, whatever happens to a sync. -/
theorem Change.streaming_iff (h : Change s stage s' next a) (hfits : stage.Fits s.desk) :
    s'.desk.state = .streaming ↔ s'.desk.active.isSome = true := by
  cases h with
  | begin => exact streaming_iff_of_slot s.desk.slot_signalCancel hfits.streaming
  -- submit | the task before has left
  | submit t g w pic before d free =>
    obtain ⟨hactive, rfl⟩ := Desk.eq_of_beginSubmission free
    simp [hactive]
  | reject t g e =>
    rw [endSubmission_eq hfits rfl rfl]
    simp [releaseLock, Session.recordFailure, Session.onStatus, Session.onDesk,
      hfits.active_eq_none rfl]
  | finish t g p s' released =>
    subst released
    have hfits' : Fits _ (s.onProject fun _ ↦ p).desk := hfits.of_slot rfl
    rw [endSubmission_eq hfits' rfl rfl]
    simp [releaseLock, Session.onProject, Session.onDesk, hfits.active_eq_none rfl]
  | follow t g id m d registered =>
    obtain ⟨-, rfl, rfl⟩ := Monitor.eq_of_register registered
    exact ⟨fun _ ↦ rfl, fun _ ↦ rfl⟩
  | take g m m' d text intake follows => exact streaming_iff_of_slot follows.slot hfits.streaming
  | pass g m m' d follows => exact streaming_iff_of_slot follows.slot hfits.streaming
  | comeBack g m d o finishes told =>
    -- a task that has ended leaves a terminal state
    refine streaming_iff_of_slot (hfits.slot_of_finishes finishes) ?_
    have hterminal := finishes.proper.isTerminal
    cases hstate : o.state <;> simp_all [TaskState.isTerminal]
  | abandon =>
    cases stage with
    | following g m =>
      have hslot := hfits.slot_of_finishes (Monitor.finishes_of_abandon (m := m) (d := s.desk))
      refine streaming_iff_of_slot hslot ?_
      simp [Monitor.cancelledError, Monitor.Outcome.state, Failure.isCancelled]
    | _ => exact hfits.streaming
  | writeBack t o held ended =>
    rw [noteTimeout_eq]
    exact hfits.streaming
  | _ => exact hfits.streaming

/-- To wait for the task before one has just taken the lock. -/
theorem Change.of_stopping {t g : Nat} {w : Workflow} {pic : Option String} {before : Option Nat}
    (h : Change s stage s' (some (.stopping t g w pic before)) a) :
    s' = (beginGeneration s).2 ∧ before = (beginGeneration s).1 := by
  cases h with
  | begin => exact ⟨rfl, rfl⟩

/-- **A sync comes back with what its monitor has reported,** since its task could be registered. -/
theorem Change.of_reported {t g : Nat} {o : Monitor.Outcome}
    (h : Change s stage s' (some (.returning t g (some o))) a) (hfits : stage.Fits s.desk) :
    o.IsProper ∧ a = some (.ended o) := by
  cases h with
  | unfollow t g id e taken =>
    rw [hfits.register_eq rfl] at taken
    cases taken
  | comeBack g m d o finishes told => exact ⟨finishes.proper, rfl⟩

/-- Whoever goes on following a task tells nobody to end, and keeps his ticket. -/
theorem Change.of_following {g g' : Nat} {m m' : Monitor}
    (h : Change s (.following g m) s' (some (.following g' m')) a) :
    m'.ticket = m.ticket ∧ s'.desk.guards = s.desk.guards := by
  cases h with
  | take g m m' d text intake follows => exact ⟨follows.ticket, follows.guards⟩
  | pass g m m' d follows => exact ⟨follows.ticket, follows.guards⟩

end SyncStage

namespace Course

variable {w w' : Course} {h : Happening} {i j : Nat}

/-! ### The state of the slot -/

/-- The state is the one of the sync that leads, and says whether there is a task in the slot. -/
structure Slotted (w : Course) : Prop where
  leader : ∀ {i stage}, w.Leads i stage → stage.slotState? = some w.session.desk.state
  streaming : w.session.desk.state = .streaming ↔ w.session.desk.active.isSome = true

/-- A sync in flight may count on the slot. -/
theorem Slotted.fits (hw : w.Slotted) (hn : w.Numbered) (hs : w.Seated) {stage : SyncStage}
    (hi : w.stage? i = some stage) : stage.Fits w.session.desk where
  streaming := hw.streaming
  submitting hsub := by
    cases stage with
    | submitting t g p =>
      exact (Option.some.inj (hw.leader ⟨hi, rfl, hn.current hi rfl⟩)).symm
    | answered t g r =>
      exact (Option.some.inj (hw.leader ⟨hi, rfl, hn.current hi rfl⟩)).symm
    | _ => cases hsub
  seated a ha := hs.seated ((seatOf_of_stage? hi).trans ha)

theorem slotted_ofProject (settings : Settings) (p : Project) (clock : Moment) :
    (ofProject settings p clock).Slotted := by
  refine ⟨fun hw ↦ ?_, ?_⟩
  · cases hw.inFlight
  · exact ⟨nofun, nofun⟩

/-- One step leaves the state of the slot to the sync that leads. -/
theorem Slotted.step (hw : w.Slotted) (hn : w.Numbered) (hs : w.Seated) (hl : w.Led)
    (hstep : Step w h w') : w'.Slotted := by
  cases hstep with
  | enter session stages calls past =>
    refine ⟨fun hlead ↦ ?_, ?_⟩ <;> rw [session]
    · exact hw.leader (hlead.of_enter session stages)
    · exact hw.streaming
  | @change _ _ i stage next a caller before change stages calls past =>
    have hfits := hw.fits hn hs before
    refine ⟨fun hlead ↦ ?_, change.streaming_iff hfits⟩
    obtain ⟨hgen, ⟨hold, hji⟩ | ⟨-, rfl, -⟩⟩ := hlead.of_change hn before change stages
    · rw [hold.desk_eq hn hl hji before change hgen]
      exact hw.leader hold
    · exact change.slotState hlead.submitted hfits
  | aside session stages calls past =>
    have hstate : w'.session.desk.state = w.session.desk.state :=
      congrArg Slot.state session.slot
    refine ⟨fun hlead ↦ ?_, SyncStage.streaming_iff_of_slot session.slot hw.streaming⟩
    rw [hstate]
    exact hw.leader (hlead.of_aside session stages)

/-! ### The task before -/

/-- Whoever has the lock and waits for the task before waits for the task in the slot, and this one
has been told to end. -/
def Waiting (w : Course) : Prop :=
  ∀ i t g sw pic before, w.stage? i = some (.stopping t g sw pic before) →
    ∀ j g' m, w.stage? j = some (.following g' m) →
      before = some m.ticket ∧ w.session.desk.isCancelled m.ticket = true

theorem waiting_ofProject (settings : Settings) (p : Project) (clock : Moment) :
    (ofProject settings p clock).Waiting :=
  nofun

/-- Whoever takes the lock tells the task in the slot to end. -/
theorem Seated.told_of_begin (hs : w.Seated) {g : Nat} {m : Monitor}
    (hj : w.stage? j = some (.following g m)) :
    (SyncStage.beginGeneration w.session).1 = some m.ticket ∧
      (SyncStage.beginGeneration w.session).2.desk.isCancelled m.ticket = true := by
  obtain ⟨hactive, hunfinished⟩ := hs.seated (seatOf_of_following hj)
  refine ⟨?_, Desk.isCancelled_of_active hactive
    (by rw [hunfinished]; exact List.mem_singleton_self _)⟩
  show w.session.desk.signalCancel.1 = _
  rw [Desk.signalCancel, hactive]

/-- A task that was told to end stays so, whatever the cancellations do. -/
theorem Cancels.isCancelled (cancels : w.Cancels h w') {k : Nat}
    (hk : w.session.desk.isCancelled k = true) : w'.session.desk.isCancelled k = true := by
  cases cancels with
  | none silent guards =>
    rw [Desk.isCancelled, guards]
    exact hk
  | tell i a silent active session =>
    rw [session]
    exact Desk.isCancelled_signalCancel hk
  | finish i returns ended session =>
    rw [session]
    exact hk
  | drop i session =>
    rw [session]
    exact hk

/-- One step leaves whoever waits for a task waiting for one that was told to end. -/
theorem Waiting.step (hw : w.Waiting) (hq : w.Queued) (hs : w.Seated) (hstep : Step w h w') :
    w'.Waiting := by
  intro i t g sw pic before hi j g' m hj
  cases hstep with
  | enter session stages calls past =>
    rw [session]
    rcases stage?_of_enter stages hi with hcalled | hi
    · cases hcalled
    · rcases stage?_of_enter stages hj with hcalled | hj
      · cases hcalled
      · exact hw i t g sw pic before hi j g' m hj
  | @change _ _ k stage next a caller hk change stages calls past =>
    rcases stage?_cases stages hi with ⟨rfl, rfl⟩ | ⟨hik, hi⟩
    · rcases stage?_cases stages hj with ⟨-, hboth⟩ | ⟨-, hj⟩
      · cases hboth
      · obtain ⟨hsession, rfl⟩ := change.of_stopping
        rw [hsession]
        -- whoever follows a task was told to end when this one took the lock
        exact hs.told_of_begin hj
    · rcases stage?_cases stages hj with ⟨rfl, rfl⟩ | ⟨hjk, hj⟩
      · -- nobody else could register a task, since this one has the lock
        rcases change.following with ⟨u, hheld⟩ | ⟨m', rfl⟩
        · exact absurd (hq.holder_unique hi rfl hk hheld) hik
        · obtain ⟨hticket, hguards⟩ := change.of_following
          rw [hticket, Desk.isCancelled, hguards]
          exact hw i t g sw pic before hi _ _ _ hk
      · -- the task in the slot is the same, unless the one with the lock or its owner has done
        -- something
        rcases change.desk with ⟨u, hheld⟩ | ⟨g'', m', rfl⟩ | hbegun | hsame
        · exact absurd (hq.holder_unique hi rfl hk hheld) hik
        · exact absurd (hs.alone (seatOf_of_following hj) (seatOf_of_following hk)) hjk
        · rcases change.numbering with ⟨hgen, -⟩ | ⟨u, sw', pic', prev, rfl, hheld, -⟩
          · exact absurd hgen hbegun
          · obtain rfl := Lock.eq_of_isHeldBy (hq.held hi rfl) hheld
            exact absurd (hq.serves.unique (ticketOf_of_held? hi rfl) (ticketOf_of_stage? hk)) hik
        · rw [hsame]
          exact hw i t g sw pic before hi j g' m hj
  | aside session stages calls past cancels =>
    rw [stages] at hi hj
    obtain ⟨hbefore, hcancelled⟩ := hw i t g sw pic before hi j g' m hj
    exact ⟨hbefore, cancels.isCancelled hcancelled⟩

/-- **When nobody follows a task the slot is free**, and whoever waits for the task before need not
wait any longer. -/
theorem Seated.free (hs : w.Seated) (hnone : ∀ j g m, w.stage? j ≠ some (.following g m)) :
    w.session.desk.active = none ∧ ∀ before, SyncStage.hasEnded w.session.desk before = true := by
  have hvacant : ∀ j, w.seatOf j = none := by
    intro j
    rw [seatOf, Option.bind_eq_none_iff]
    intro stage hj
    cases stage with
    | following g m => exact absurd hj (hnone j g m)
    | _ => rfl
  obtain ⟨hactive, hunfinished⟩ := hs.vacant hvacant
  refine ⟨hactive, fun before ↦ ?_⟩
  cases before with
  | none => rfl
  | some k => exact Desk.isClosed_iff.2 (by rw [hunfinished]; exact List.not_mem_nil)

/-- **And when the task before has ended nobody follows a task.** -/
theorem Waiting.not_following (hw : w.Waiting) (hs : w.Seated) {t g : Nat} {sw : Workflow}
    {pic : Option String} {before : Option Nat}
    (hi : w.stage? i = some (.stopping t g sw pic before))
    (hended : SyncStage.hasEnded w.session.desk before = true) (j g' : Nat) (m : Monitor) :
    w.stage? j ≠ some (.following g' m) := by
  intro hj
  obtain ⟨rfl, -⟩ := hw i t g sw pic before hi j g' m hj
  obtain ⟨-, hunfinished⟩ := hs.seated (seatOf_of_following hj)
  refine Desk.isClosed_iff.1 hended ?_
  rw [hunfinished]
  exact List.mem_singleton_self _

/-- **A submission can begin** as soon as the task before has ended. -/
theorem Slotted.beginSubmission_eq (hw : w.Slotted) (hs : w.Seated)
    (hnone : ∀ j g m, w.stage? j ≠ some (.following g m)) :
    w.session.desk.beginSubmission = .ok { w.session.desk with state := .submitting } := by
  obtain ⟨hactive, -⟩ := hs.free hnone
  refine Desk.beginSubmission_eq hactive fun hstreaming ↦ ?_
  have hsome := hw.streaming.1 hstreaming
  rw [hactive] at hsome
  cases hsome

/-- **A sync fails only for its submission or its task**, never because of the slot. -/
theorem Slotted.of_error (hw : w.Slotted) (hs : w.Seated) (hwait : w.Waiting) {stage : SyncStage}
    {s : Session} {e : Failure} (hi : w.stage? i = some stage)
    (hturn : stage.turn w.session = .ends s (.error e)) :
    (∃ t g, stage = .answered t g (.error e)) ∨
      ∃ t g, stage = .returning t g (some (.error e)) ∧ e.isCancelled = false := by
  refine ((SyncStage.change_of_ends hturn).of_error
    (SyncStage.result?_of_ends hturn)).resolve_left ?_
  rintro ⟨t, g, sw, pic, before, rfl, hended, htaken⟩
  rw [hw.beginSubmission_eq hs (hwait.not_following hs hi hended)] at htaken
  cases htaken

/-! ### What is reported of a task -/

/-- A sync comes back with what it has reported of its task. -/
def Reported (w : Course) : Prop :=
  ∀ i t g o, w.stage? i = some (.returning t g (some o)) → o.IsProper ∧ ⟨i, .ended o⟩ ∈ w.past

theorem reported_ofProject (settings : Settings) (p : Project) (clock : Moment) :
    (ofProject settings p clock).Reported :=
  nofun

/-- One step leaves what a sync comes back with the same as what was reported. -/
theorem Reported.step (hw : w.Reported) (hn : w.Numbered) (hs : w.Seated) (hl : w.Slotted)
    (hstep : Step w h w') : w'.Reported := by
  intro i t g o hi
  cases hstep with
  | enter session stages calls past =>
    rw [past]
    rcases stage?_of_enter stages hi with hcalled | hi
    · cases hcalled
    · exact hw i t g o hi
  | @change _ _ k stage next a caller hk change stages calls past =>
    rw [past]
    rcases stage?_cases stages hi with ⟨rfl, rfl⟩ | ⟨-, hi⟩
    · obtain ⟨proper, rfl⟩ := change.of_reported (hl.fits hn hs hk)
      exact ⟨proper, by simp⟩
    · obtain ⟨proper, hmem⟩ := hw i t g o hi
      exact ⟨proper, List.mem_append_left _ hmem⟩
  | aside session stages calls past =>
    rw [past]
    exact hw i t g o (stages ▸ hi)

/-! ### In every course -/

variable (settings : Settings) (p : Project) (clock : Moment) (hs : List Happening)

/-- After every run the state of the slot is that of the sync that leads. -/
theorem slotted_run : ((ofProject settings p clock).run hs).Slotted :=
  run_induction (slotted_ofProject settings p clock)
    (fun hw hstep ↦ hw.step (numbered_run settings p clock _) (seated_run settings p clock _)
      (led_run settings p clock _) hstep) hs

/-- After every run the task somebody waits for has been told to end. -/
theorem waiting_run : ((ofProject settings p clock).run hs).Waiting :=
  run_induction (waiting_ofProject settings p clock)
    (fun hw hstep ↦
      hw.step (queued_run settings p clock _) (seated_run settings p clock _) hstep) hs

/-- After every run a sync comes back with what was reported of its task. -/
theorem reported_run : ((ofProject settings p clock).run hs).Reported :=
  run_induction (reported_ofProject settings p clock)
    (fun hw hstep ↦ hw.step (numbered_run settings p clock _) (seated_run settings p clock _)
      (slotted_run settings p clock _) hstep) hs

end Course

end GraphSession
