import GraphSession.Proofs.Session.Content

/-!
# Writing back

A sync that writes back gives the graph what it has earned: its own snapshot with the frames of its
own task, in the order they came, or the workflow that the backend has answered with
(`graph_of_own_sync`). Nothing but a sync that writes back, and the user, changes the graph, and a
sync that was overtaken changes neither graph nor status any more.

**The generation stands for the order of the lock** (`Course.Succession`): generations ascend in the
order in which the lock was taken. So a sync is overtaken exactly when its generation is not the
current one.
-/

namespace GraphSession

namespace SyncStage

variable {s s' : Session} {stage : SyncStage} {next : Option SyncStage} {a : Option Act}
  {acts : List Act}

/-- The workflow that a sync may write back, by what it has done. -/
inductive Earns : List Act → Option Monitor.Outcome → Workflow → Prop
  /-- Its snapshot, with the frames of its task. -/
  | task (w : Workflow) (t : Nat) (a : Except Failure (Option String)) (g : Nat) (clock : Moment)
      (p : Project) (own : p.workflow = w) (k : Nat) (id : String) (n : Nat) (texts : List String)
      (r : TaskReport) :
      Earns (opening w t a g clock p ++ descent k id n ++ texts.map (.took k) ++ [.ended (.ok r)])
        (some (.ok r)) (texts.foldl Workflow.takeText w)
  /-- The workflow that the backend has answered with. -/
  | final (w : Workflow) (t : Nat) (a : Except Failure (Option String)) (g : Nat) (clock : Moment)
      (p : Project) (own : p.workflow = w) (q : Project) :
      Earns (opening w t a g clock p ++ [.replied (.ok (.done q)), .finished q]) none q.workflow

/-- A sync writes back in the end, with the lock in hand and its generation current. -/
theorem Change.of_wroteBack {o : Option Monitor.Outcome}
    (h : Change s stage s' next (some (.wroteBack o))) :
    next = none ∧ (∃ t, stage = .returning t s.generation o) ∧ ∀ e, o ≠ some (.error e) := by
  cases h with
  | writeBack t o held ended => exact ⟨rfl, ⟨t, rfl⟩, ended⟩

/-- **The record of a sync that comes back says what it has earned**, and that this is what it has
made of the project. -/
theorem Record.earns {t g : Nat} {o : Option Monitor.Outcome} (h : Record (.returning t g o) acts)
    (ho : ∀ e, o ≠ some (.error e)) :
    ∃ w, Earns acts o w ∧ ∀ q, (replay acts q).workflow = w := by
  cases h with
  | ended t _ _ a clock p k id n texts o =>
    rcases o with e | r
    · exact absurd rfl (ho e)
    · refine ⟨_, .task p.workflow t a g clock p rfl k id n texts r, fun q ↦ ?_⟩
      rw [← Project.workflow_foldl_takeText, ← replay_took k]
      simp [replay, opening, descent, Act.rewrite]
  | finished t _ _ a clock p q => exact ⟨_, .final p.workflow t a g clock p rfl q, fun _ ↦ rfl⟩
  | unfollowed t _ _ a clock p id e => exact absurd rfl (ho e)

/-- A sync that was overtaken does no more than end its task and give up its ticket. -/
theorem Change.of_overtaken {g : Nat} (h : Change s stage s' next a) (hheld : stage.held? = none)
    (hgen : stage.generation? = some g) (hlater : g ≠ s.generation) :
    s'.graph = s.graph ∧ s'.status = s.status := by
  cases h with
  | take | pass | comeBack | overtake => exact ⟨rfl, rfl⟩
  | writeBack | quit | fail => exact absurd (Option.some.inj hgen).symm hlater
  | abandon =>
    cases stage <;> exact ⟨rfl, rfl⟩
  | submit | refuse | reply | reject | finish | follow | unfollow => cases hheld
  | _ => cases hgen

/-- The generation that a sync has begun is its generation. -/
theorem Record.generation? (h : Record stage acts) {g : Nat} {c : Moment} (hg : .began g c ∈ acts) :
    stage.generation? = some g := by
  cases h <;> simp [opening, descent] at hg <;> exact congrArg some hg.1.symm

/-- And it has begun the generation it is of. -/
theorem Record.exists_began {g : Nat} (h : Record stage acts) (hg : stage.generation? = some g) :
    ∃ c, .began g c ∈ acts := by
  cases h with
  | stopping | submitting | answered | following | ended | finished | unfollowed =>
    obtain rfl := Option.some.inj hg
    simp [opening, descent]
  | _ => cases hg

/-- A sync that begins takes the next generation. -/
theorem Change.of_began {g : Nat} {c : Moment} (h : Change s stage s' next (some (.began g c))) :
    g = s.generation + 1 ∧ s'.generation = g := by
  cases h with
  | begin t w pic held => exact ⟨rfl, rfl⟩

/-- Generations only grow. -/
theorem Change.generation_le (h : Change s stage s' next a) : s.generation ≤ s'.generation := by
  rcases h.numbering with ⟨hgen, -⟩ | ⟨-, -, -, -, -, -, hgen, -⟩ <;> omega

end SyncStage

namespace Course

variable {w w' : Course} {h : Happening} {i : Nat}

/-! ### Generations ascend -/

/-- Generations ascend in the order in which the lock was taken. -/
structure Succession (w : Course) : Prop where
  generation_le : ∀ {i g c}, ⟨i, .began g c⟩ ∈ w.past → g ≤ w.session.generation
  ascending : w.past.Pairwise fun d e ↦ ∀ g c g' c', d.act = .began g c → e.act = .began g' c' →
    g < g'

theorem succession_ofProject (settings : Settings) (p : Project) (clock : Moment) :
    (ofProject settings p clock).Succession :=
  ⟨nofun, .nil⟩

/-- One step leaves the generations in the order in which the lock was taken. -/
theorem Succession.step (hw : w.Succession) (hstep : Step w h w') : w'.Succession := by
  cases hstep with
  | enter session stages calls past =>
    refine ⟨fun hd ↦ ?_, past ▸ hw.ascending⟩
    rw [session]
    exact hw.generation_le (past ▸ hd)
  | @change _ _ j stage next a caller before change stages calls past =>
    refine ⟨fun hd ↦ ?_, ?_⟩
    · rw [past, mem_append_deed] at hd
      rcases hd with hd | ⟨act, rfl, hd⟩
      · exact Nat.le_trans (hw.generation_le hd) change.generation_le
      · obtain ⟨-, rfl⟩ := Deed.mk.inj hd
        exact Nat.le_of_eq change.of_began.2.symm
    · rw [past, pairwise_append_deed]
      refine ⟨hw.ascending, ?_⟩
      rintro act rfl ⟨k, act'⟩ hd g c g' c' rfl rfl
      rw [change.of_began.1]
      exact Nat.lt_succ_of_le (hw.generation_le hd)
  | aside session stages calls past =>
    refine ⟨fun hd ↦ ?_, past ▸ hw.ascending⟩
    rw [session.generation]
    exact hw.generation_le (past ▸ hd)

/-- Some sync has taken the lock after this one. -/
def Overtaken (w : Course) (i : Nat) : Prop :=
  ∃ g c j g' c', [⟨i, .began g c⟩, ⟨j, .began g' c'⟩].Sublist w.past

/-- **A sync that was overtaken is of an earlier generation**, and has not got the lock in hand. -/
theorem Overtaken.generation_lt (hi : w.Overtaken i) (hw : w.Succession) (hr : w.Recorded)
    {stage : SyncStage} (hstage : w.stage? i = some stage) :
    ∃ g, stage.generation? = some g ∧ g < w.session.generation := by
  obtain ⟨g, c, j, g', c', hsub⟩ := hi
  have hbegan : ⟨i, .began g c⟩ ∈ w.past := hsub.subset (by simp)
  have hlater : ⟨j, .began g' c'⟩ ∈ w.past := hsub.subset (by simp)
  have hlt : g < g' :=
    List.pairwise_iff_forall_sublist.1 hw.ascending hsub g c g' c' rfl rfl
  refine ⟨g, (hr.record hstage).generation? (mem_actsOf.2 hbegan), ?_⟩
  exact Nat.lt_of_lt_of_le hlt (hw.generation_le hlater)

/-! ### What is written back -/

/-- Only an edit and a sync that writes back change the graph. -/
theorem Step.graph (hstep : Step w h w') :
    w'.session.graph = w.session.graph ∨ h.isEdit = true ∨
      ∃ i o, w'.past = w.past ++ [⟨i, .wroteBack o⟩] := by
  cases hstep with
  | enter session => exact .inl (by rw [session])
  | @change _ _ i stage next a caller before change stages calls past =>
    rcases a with _ | a
    · exact .inl change.graph
    · cases a with
      | wroteBack o => exact .inr (.inr ⟨i, o, past⟩)
      | _ => exact .inl change.graph
  | aside session =>
    by_cases hedit : h.isEdit = false
    · exact .inl (session.graph hedit)
    · exact .inr (.inl (by simpa using hedit))

/-- **A sync writes back what it has earned.** -/
theorem Step.earned (hstep : Step w h w') (hr : w.Recorded) (hf : w.Faithful)
    {o : Option Monitor.Outcome} (hdeed : w'.past = w.past ++ [⟨i, .wroteBack o⟩]) :
    ∃ result, SyncStage.Earns (w.actsOf i) o result ∧
      w'.session.graph = w.session.graph.adopt result := by
  obtain ⟨stage, next, hi, -, change⟩ := hstep.of_deed hdeed
  obtain ⟨-, ⟨t, rfl⟩, ho⟩ := change.of_wroteBack
  obtain ⟨result, hearns, hreplay⟩ := (hr.record hi).earns ho
  -- the project is what its own acts make of any, and so of itself
  refine ⟨result, hearns, change.graph.trans ?_⟩
  have hproject := hf i _ ⟨hi, rfl, rfl⟩ w.session.project
  show w.session.graph.adopt w.session.project.workflow = _
  rw [← hproject, hreplay]

variable (settings : Settings) (p : Project) (clock : Moment) (hs : List Happening) (h : Happening)

/-- After every run the generations ascend in the order in which the lock was taken. -/
theorem succession_run : ((ofProject settings p clock).run hs).Succession :=
  run_induction (succession_ofProject settings p clock) (fun hw hstep ↦ hw.step hstep) hs

/-- A sync that has been overtaken changes neither the graph nor the status. -/
theorem status_of_overtaken {stage : SyncStage}
    (hi : ((ofProject settings p clock).run hs).stage? i = some stage)
    (hover : ((ofProject settings p clock).run hs).Overtaken i) (hcaller : h.caller? = some i) :
    (((ofProject settings p clock).run hs).step h).session.graph =
        ((ofProject settings p clock).run hs).session.graph ∧
      (((ofProject settings p clock).run hs).step h).session.status =
        ((ofProject settings p clock).run hs).session.status := by
  obtain ⟨g, hg, hlt⟩ := hover.generation_lt (succession_run settings p clock hs)
    (recorded_run settings p clock hs) hi
  rcases step_of_stage? hi hcaller with hsame | ⟨next, a, change⟩
  · rw [hsame]
    exact ⟨rfl, rfl⟩
  · refine change.of_overtaken ?_ hg (Nat.ne_of_lt hlt)
    -- with the lock in hand it would be of the current generation
    by_contra hheld
    obtain ⟨t, ht⟩ := Option.ne_none_iff_exists'.1 hheld
    have hcurrent := (numbered_run settings p clock hs).current hi ht
    rw [hg] at hcurrent
    exact absurd (Option.some.inj hcurrent) (Nat.ne_of_lt hlt)

/-- What reaches the graph, of whatever happens next. -/
structure WritesOwn (w : Course) (h : Happening) : Prop where
  /-- A sync that writes back gives the graph what it has earned itself. -/
  earned : ∀ i o, (w.step h).past = w.past ++ [⟨i, .wroteBack o⟩] →
    ∃ result, SyncStage.Earns (w.actsOf i) o result ∧
      (w.step h).session.graph = w.session.graph.adopt result
  /-- Nothing else changes the graph but the user. -/
  graph : (w.step h).session.graph = w.session.graph ∨ h.isEdit = true ∨
    ∃ i o, (w.step h).past = w.past ++ [⟨i, .wroteBack o⟩]
  /-- A sync in flight that was overtaken changes neither graph nor status, whatever becomes of
  it. -/
  overtaken : ∀ i stage, w.stage? i = some stage → w.Overtaken i → h.caller? = some i →
    (w.step h).session.graph = w.session.graph ∧ (w.step h).session.status = w.session.status

/-- **A sync writes back its own results,** as long as nobody but the session writes to the
project. -/
theorem graph_of_own_sync (quiet : ∀ h' ∈ hs, h'.isWrite = false) :
    WritesOwn ((ofProject settings p clock).run hs) h := by
  have hstep := step_run settings p clock hs h
  refine ⟨fun i o hdeed ↦ ?_, hstep.graph, fun i stage hi hover hcaller ↦ ?_⟩
  · exact hstep.earned (recorded_run settings p clock hs) (faithful_run settings p clock hs quiet)
      hdeed
  · exact status_of_overtaken settings p clock hs h hi hover hcaller

/-- What the outside answers a sync whose project the backend runs at once. -/
def directAnswer (q : Project) : (r : Request) → Except Failure r.Answer
  | .thumbnail => .ok none
  | .submission _ => .ok (.done q)
  | _ => .error .serialization

/-- A sync whose project the backend runs at once, until it comes back. -/
def directSync (q : Project) : List Happening :=
  [.sync, .turn 0, .answer 0 (directAnswer q), .turn 0, .turn 0, .turn 0,
    .answer 0 (directAnswer q), .turn 0]

/-- A sync is about to write back what the backend has answered with: the graph has no source. -/
def directCourse : Course :=
  (ofProject .default (.carrying .empty) default).run
    (directSync (.carrying { Workflow.empty with error := some "no source" }))

theorem past_directCourse_step :
    (directCourse.step (.turn 0)).past = directCourse.past ++ [⟨0, .wroteBack none⟩] := rfl

/-- The graph gets the workflow of the answer. -/
theorem graph_of_directSync :
    (∀ q, ∀ h ∈ directSync q, h.isWrite = false) ∧
      ∃ result, SyncStage.Earns (directCourse.actsOf 0) none result ∧
        (directCourse.step (.turn 0)).session.graph = directCourse.session.graph.adopt result := by
  have quiet : ∀ q, ∀ h ∈ directSync q, h.isWrite = false := by
    intro q
    simp [directSync, Happening.isWrite]
  exact ⟨quiet, (graph_of_own_sync .default (.carrying .empty) default _ (.turn 0)
    (quiet _)).earned 0 none past_directCourse_step⟩

end Course

end GraphSession
