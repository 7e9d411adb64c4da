import GraphSession.Proofs.Session.Seat

/-!
# What is in the project

While nobody else writes to the project, the sync of the current generation knows what is in it:
from the moment it has submitted until it comes back for the last time, the project is what its own
acts make of any project (`Course.Faithful`).

**Nobody else gets at the project meanwhile.** To submit, or to put an answer in, takes the lock in
hand, and whoever has the lock in hand is of the current generation. A frame is taken in by whoever
follows a task, and that is nobody else either (`Course.Led`): the slot was free when the sync
submitted, and only whoever has the lock can fill it.
-/

namespace GraphSession

/-- What acts make of a project. -/
def replay (acts : List Act) (p : Project) : Project := acts.foldl (fun p a ↦ a.rewrite p) p

/-- One more act is made last. -/
@[simp] theorem replay_append (acts : List Act) (a : Option Act) (p : Project) :
    replay (acts ++ a.toList) p = a.elim (replay acts p) fun a ↦ a.rewrite (replay acts p) := by
  cases a <;> simp [replay]

/-- Replaying frames takes their texts into the project, one after the other. -/
theorem replay_took (k : Nat) (texts : List String) (p : Project) :
    replay (texts.map (.took k)) p = texts.foldl Project.takeText p := by
  rw [replay, List.foldl_map]
  rfl

namespace SyncStage

/-- Whether a sync has submitted. -/
def hasSubmitted : SyncStage → Bool
  | submitting _ _ _ | answered _ _ _ | following _ _ | returning _ _ _ => true
  | _ => false

variable {s s' : Session} {stage stage' : SyncStage} {a : Option Act}

/-- A sync gets to have submitted by doing so, when the slot is free. -/
theorem Change.hasSubmitted (h : Change s stage s' (some stage') a)
    (hsub : stage'.hasSubmitted = true) :
    stage.hasSubmitted = true ∨ s.desk.active = none ∧ ∃ t p, a = some (.submitted t p) := by
  cases h with
  | submit t g w pic before d free =>
    exact .inr ⟨(Desk.eq_of_beginSubmission free).1, t, _, rfl⟩
  | reply | finish | follow | unfollow | take | pass | comeBack => exact .inl rfl
  | _ => cases hsub

/-- To follow a task one had to have the lock in hand. -/
theorem Change.following {g : Nat} {m : Monitor} (h : Change s stage s' (some (.following g m)) a) :
    (∃ t, stage.held? = some t) ∨ ∃ m', stage = .following g m' := by
  cases h with
  | follow t g id m d registered => exact .inl ⟨t, rfl⟩
  | take g m | pass g m => exact .inr ⟨m, rfl⟩

/-- Who touches the desk: whoever has the lock in hand, takes it, or follows a task. -/
theorem Change.desk {next : Option SyncStage} (h : Change s stage s' next a) :
    (∃ t, stage.held? = some t) ∨ (∃ g m, stage = .following g m) ∨ s'.generation ≠ s.generation ∨
      s'.desk = s.desk := by
  cases h with
  | begin => exact .inr (.inr (.inl (Nat.succ_ne_self _)))
  | submit t | refuse t | reply t | reject t | finish t | follow t | unfollow t =>
    exact .inl ⟨t, rfl⟩
  | take g m | pass g m | comeBack g m => exact .inr (.inl ⟨g, m, rfl⟩)
  | writeBack t o held ended =>
    rw [noteTimeout_eq]
    exact .inr (.inr (.inr rfl))
  | abandon =>
    cases stage with
    | following g m => exact .inr (.inl ⟨g, m, rfl⟩)
    | _ => exact .inr (.inr (.inr rfl))
  | _ => exact .inr (.inr (.inr rfl))

end SyncStage

namespace Course

variable {w w' : Course} {h : Happening} {i j : Nat}

/-- A sync in flight has submitted, and nobody has taken the lock since. -/
structure Leads (w : Course) (i : Nat) (stage : SyncStage) : Prop where
  inFlight : w.stage? i = some stage
  submitted : stage.hasSubmitted = true
  current : stage.generation? = some w.session.generation

/-- Nobody else follows a task. -/
def Led (w : Course) : Prop :=
  ∀ i stage, w.Leads i stage → ∀ j g m, w.stage? j = some (.following g m) → j = i

/-- The project is what the acts of the sync make of any project. -/
def Faithful (w : Course) : Prop :=
  ∀ i stage, w.Leads i stage → ∀ q, replay (w.actsOf i) q = w.session.project

/-- Who leads after a step: he has just submitted, or did lead before; and nobody has begun. -/
theorem Leads.of_change {stage stage' : SyncStage} {next : Option SyncStage} {a : Option Act}
    (hw : w'.Leads j stage') (hn : w.Numbered) (before : w.stage? i = some stage)
    (change : stage.Change w.session w'.session next a)
    (stages : w'.stage? = Function.update w.stage? i next) :
    w'.session.generation = w.session.generation ∧
      (w.Leads j stage' ∧ j ≠ i ∨ j = i ∧ next = some stage' ∧
        (w.Leads i stage ∨ w.session.desk.active = none ∧ ∃ t p, a = some (.submitted t p))) := by
  have hj := hw.inFlight
  rcases change.numbering with ⟨hgen, hsame⟩ | ⟨t, sw, pic, prev, rfl, ht, hgen, rfl⟩
  · refine ⟨hgen, ?_⟩
    rcases stage?_cases stages hj with ⟨rfl, rfl⟩ | ⟨hji, hj⟩
    · refine .inr ⟨rfl, rfl, ?_⟩
      rcases change.hasSubmitted hw.submitted with hsub | hfresh
      · refine .inl ⟨before, hsub, ?_⟩
        rw [← (hsame _ rfl).1, hw.current, hgen]
      · exact .inr hfresh
    · exact .inl ⟨⟨hj, hw.submitted, by rw [hw.current, hgen]⟩, hji⟩
  · -- whoever begins has not submitted, and all others are of the past now
    rcases stage?_cases stages hj with ⟨rfl, hnext⟩ | ⟨hji, hj⟩
    · have hsub := hw.submitted
      rw [← Option.some.inj hnext] at hsub
      cases hsub
    · have hle := hn.generation_le hj (hgen ▸ hw.current)
      exact absurd hle (Nat.not_succ_le_self _)

/-- Who leads after a sync was called for did lead before. -/
theorem Leads.of_enter {stage : SyncStage} (hw : w'.Leads j stage)
    (session : w'.session = w.session)
    (stages : w'.stage? = Function.update w.stage? i (some .called)) : w.Leads j stage := by
  rcases stage?_of_enter stages hw.inFlight with rfl | hj
  · cases hw.submitted
  · exact ⟨hj, hw.submitted, session ▸ hw.current⟩

/-- Who leads goes on leading while the syncs are passed by. -/
theorem Leads.of_aside {stage : SyncStage} (hw : w'.Leads j stage)
    (session : w.session.Aside h w'.session) (stages : w'.stage? = w.stage?) : w.Leads j stage :=
  ⟨stages ▸ hw.inFlight, hw.submitted, session.generation ▸ hw.current⟩

/-- Whoever has the lock in hand is the one who leads. -/
theorem Leads.eq_of_held {a b : SyncStage} {t : Nat} (hw : w.Leads i a) (hn : w.Numbered)
    (hj : w.stage? j = some b) (hheld : b.held? = some t) : j = i :=
  hn.unique hj (hn.current hj hheld) hw.inFlight hw.current

theorem led_ofProject (settings : Settings) (p : Project) (clock : Moment) :
    (ofProject settings p clock).Led := by
  intro i stage hw
  cases hw.inFlight

/-- No step brings in a second follower beside the sync that leads. -/
theorem Led.step (hw : w.Led) (hn : w.Numbered) (hs : w.Seated) (hstep : Step w h w') : w'.Led := by
  intro i stage hlead j g m hj
  cases hstep with
  | enter session stages calls past =>
    rcases stage?_of_enter stages hj with hcalled | hj
    · cases hcalled
    · exact hw i stage (hlead.of_enter session stages) j g m hj
  | @change _ _ k stage next a caller before change stages calls past =>
    rcases (hlead.of_change hn before change stages).2 with ⟨hold, hik⟩ | ⟨rfl, rfl, hnew⟩
    · rcases stage?_cases stages hj with ⟨rfl, rfl⟩ | ⟨-, hj⟩
      · rcases change.following with ⟨t, hheld⟩ | ⟨m', rfl⟩
        · exact hold.eq_of_held hn before hheld
        · exact hw i _ hold j g m' before
      · exact hw i _ hold j g m hj
    · rcases stage?_cases stages hj with ⟨rfl, -⟩ | ⟨-, hj⟩
      · rfl
      · rcases hnew with hbefore | ⟨free, -⟩
        · exact hw i _ hbefore j g m hj
        · -- the slot was free when this one submitted
          have hseat := hs.eq_none free j
          rw [seatOf_of_following hj] at hseat
          cases hseat
  | aside session stages calls past =>
    exact hw i stage (hlead.of_aside session stages) j g m (stages ▸ hj)

/-- **Nobody else gets at the desk of the one who leads.** -/
theorem Leads.desk_eq {stage stage' : SyncStage} {next : Option SyncStage} {a : Option Act}
    (hw : w.Leads j stage') (hn : w.Numbered) (hl : w.Led) (hji : j ≠ i)
    (before : w.stage? i = some stage) (change : stage.Change w.session w'.session next a)
    (hgen : w'.session.generation = w.session.generation) : w'.session.desk = w.session.desk := by
  rcases change.desk with ⟨t, hheld⟩ | ⟨g, m, rfl⟩ | hbegun | hsame
  · exact absurd (hw.eq_of_held hn before hheld).symm hji
  · exact absurd (hl j _ hw i g m before).symm hji
  · exact absurd hgen hbegun
  · exact hsame

theorem faithful_ofProject (settings : Settings) (p : Project) (clock : Moment) :
    (ofProject settings p clock).Faithful := by
  intro i stage hw
  cases hw.inFlight

/-- What the one who leads has made of the project stays. -/
theorem Faithful.step (hw : w.Faithful) (hn : w.Numbered) (hl : w.Led) (hwrite : h.isWrite = false)
    (hstep : Step w h w') : w'.Faithful := by
  intro i stage hlead q
  cases hstep with
  | enter session stages calls past =>
    rw [actsOf_congr past, session]
    exact hw i stage (hlead.of_enter session stages) q
  | @change _ _ k stage next a caller before change stages calls past =>
    obtain ⟨hgen, ⟨hold, hik⟩ | ⟨rfl, rfl, hnew⟩⟩ := hlead.of_change hn before change stages
    · rw [actsOf_of_ne past hik, hw i _ hold q]
      exact (congrArg Desk.project (hold.desk_eq hn hl hik before change hgen)).symm
    · -- its own acts go into its replay as into the project
      rw [actsOf_self past, replay_append, change.project]
      rcases hnew with hbefore | ⟨-, t, p, rfl⟩
      · rw [hw i _ hbefore q]
      · -- a submission puts its snapshot in, whatever was in the project
        rfl
  | aside session stages calls past =>
    rw [actsOf_congr past, session.project hwrite]
    exact hw i stage (hlead.of_aside session stages) q

/-! ### In every course -/

variable (settings : Settings) (p : Project) (clock : Moment) (hs : List Happening)

theorem led_run : ((ofProject settings p clock).run hs).Led :=
  run_induction (led_ofProject settings p clock)
    (fun hw hstep ↦
      hw.step (numbered_run settings p clock _) (seated_run settings p clock _) hstep) hs

/-- While nobody else writes, the project is always what the leading sync has made of it. -/
theorem faithful_run (quiet : ∀ h ∈ hs, h.isWrite = false) :
    ((ofProject settings p clock).run hs).Faithful :=
  run_induction_of (R := fun h ↦ h.isWrite = false) (faithful_ofProject settings p clock)
    (fun hwrite hw hstep ↦ hw.step (numbered_run settings p clock _) (led_run settings p clock _)
      hwrite hstep) hs quiet

end Course

end GraphSession
