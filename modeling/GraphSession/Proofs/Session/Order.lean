import GraphSession.Proofs.Session.Exclusion
import GraphSession.Proofs.Session.Record

/-!
# In which order syncs submit

Syncs submit in the order in which they joined the line of the lock, which is the order in which
they got their pictures (`submissions_follow_captures`). When they took their snapshots has no say
in it: a sync that waits long for its picture submits after one that was called for later and waited
less, and its snapshot is the older one (`not_submissions_follow_serializations`).

**Tickets stand for the order.** A ticket is higher than all before, so tickets ascend as syncs get
their pictures; and the lock goes to the lowest in line, so they ascend as syncs submit
(`Course.Orderly`).
-/

namespace GraphSession

namespace Course

variable {w w' : Course} {h : Happening} {i j : Nat}

/-! ### Before and after -/

/-- Each of two syncs has done something of a kind, and the one before the other. -/
def Before (w : Course) (kind : Act → Bool) (i j : Nat) : Prop :=
  ∃ a b, kind a = true ∧ kind b = true ∧ [⟨i, a⟩, ⟨j, b⟩].Sublist w.past

/-- A sync has done something of a kind. -/
def Has (w : Course) (kind : Act → Bool) (i : Nat) : Prop :=
  ∃ a, kind a = true ∧ ⟨i, a⟩ ∈ w.past

/-- One act before another is a pair in the record of who did what kind. -/
theorem before_iff {kind : Act → Bool} : w.Before kind i j ↔
    [(i, true), (j, true)].Sublist (w.past.map fun d ↦ (d.caller, kind d.act)) := by
  rw [List.sublist_map_iff]
  constructor
  · rintro ⟨a, b, ha, hb, hsub⟩
    exact ⟨_, hsub, by simp [ha, hb]⟩
  · rintro ⟨l, hsub, hl⟩
    obtain ⟨⟨i', a⟩, l', rfl, ha, hl'⟩ := List.map_eq_cons_iff.1 hl.symm
    obtain ⟨⟨j', b⟩, l'', rfl, hb, hl''⟩ := List.map_eq_cons_iff.1 hl'
    obtain rfl := List.map_eq_nil_iff.1 hl''
    obtain ⟨rfl, hkind⟩ := Prod.mk.inj ha
    obtain ⟨rfl, hkind'⟩ := Prod.mk.inj hb
    exact ⟨a, b, hkind, hkind', hsub⟩

/-- Which of two acts came first can be read off the past. -/
instance (w : Course) (kind : Act → Bool) (i j : Nat) : Decidable (w.Before kind i j) :=
  decidable_of_iff _ before_iff.symm

/-- Two different entries of a list come in one order or the other. -/
theorem sublist_or_sublist {α : Type} {l : List α} {a b : α} (ha : a ∈ l) (hb : b ∈ l)
    (hne : a ≠ b) : [a, b].Sublist l ∨ [b, a].Sublist l := by
  have hpairs : l.Pairwise fun a b ↦ [a, b].Sublist l ∨ [b, a].Sublist l :=
    List.pairwise_of_forall_sublist Or.inl
  have : Std.Symm fun a b ↦ [a, b].Sublist l ∨ [b, a].Sublist l := ⟨fun _ _ ↦ Or.symm⟩
  exact hpairs.forall ha hb hne

/-- What comes first is what may come first. -/
theorem pair_sublist {α : Type} {R : α → α → Prop} {l : List α} {a b : α} (hl : l.Pairwise R)
    (ha : a ∈ l) (hb : b ∈ l) (hne : a ≠ b) (hnot : ¬ R b a) : [a, b].Sublist l := by
  rcases sublist_or_sublist ha hb hne with hsub | hsub
  · exact hsub
  · exact absurd (hl.forall_sublist hsub) hnot

/-- In a list that is related pairwise, two unrelated entries are one. -/
theorem eq_of_not_rel {α : Type} {R : α → α → Prop} {l : List α} {a b : α} (hl : l.Pairwise R)
    (ha : a ∈ l) (hb : b ∈ l) (hab : ¬ R a b) (hba : ¬ R b a) : a = b := by
  by_contra hne
  exact hab (hl.forall_sublist (pair_sublist hl ha hb hne hba))

theorem mem_of_pair_sublist {α : Type} {l : List α} {a b : α} (h : [a, b].Sublist l) :
    a ∈ l ∧ b ∈ l :=
  ⟨h.subset List.mem_cons_self, h.subset (List.mem_cons_of_mem _ List.mem_cons_self)⟩

end Course

namespace SyncStage

variable {s s' : Session} {stage : SyncStage} {next : Option SyncStage} {acts : List Act}

/-- A sync that got its picture joins the line, at its end. -/
theorem Change.of_captured {t : Nat} {a : Except Failure (Option String)}
    (h : Change s stage s' next (some (.captured t a))) :
    (∃ w, stage = .captured w a) ∧ t = s.lock.tickets ∧ s'.lock = s.lock.join.2 := by
  cases h with
  | queue w a => exact ⟨⟨w, rfl⟩, rfl, rfl⟩

/-- A sync that submits is the first of the line, and stays it. -/
theorem Change.of_submitted {t : Nat} {p : Project}
    (h : Change s stage s' next (some (.submitted t p))) :
    (∃ g w pic before, stage = .stopping t g w pic before ∧ p.workflow = w) ∧
      s'.lock = s.lock := by
  cases h with
  | submit t g w pic before d free => exact ⟨⟨g, w, pic, before, rfl, rfl⟩, rfl⟩

/-- A sync that has the lock and waits for the task before has its ticket and its snapshot, and has
not submitted yet. -/
theorem Record.of_stopping {t g : Nat} {w : Workflow} {pic : Option String} {before : Option Nat}
    (h : Record (.stopping t g w pic before) acts) :
    (∃ a, .captured t a ∈ acts) ∧ .serialized w ∈ acts ∧ ∀ u p, .submitted u p ∉ acts := by
  cases h with
  | stopping t g w a clock before => exact ⟨⟨a, by simp⟩, by simp, by simp⟩

/-- Those in line after a change were in it before, or have a new ticket. -/
theorem LockUse.tickets_le {l l' : Lock} {t t' : Option Nat} (h : LockUse l t l' t') :
    l.tickets ≤ l'.tickets ∧ ∀ u ∈ l'.line, u ∈ l.line ∨ l.tickets ≤ u := by
  cases h with
  | keep => exact ⟨Nat.le_refl _, fun u hu ↦ .inl hu⟩
  | join =>
    refine ⟨Nat.le_succ _, fun u hu ↦ ?_⟩
    rcases List.mem_append.1 hu with hu | hu
    · exact .inl hu
    · exact .inr (Nat.le_of_eq (List.mem_singleton.1 hu).symm)
  | leave t => exact ⟨Nat.le_refl _, fun u hu ↦ .inl (List.mem_of_mem_erase hu)⟩
  | rejoin t =>
    refine ⟨Nat.le_succ _, fun u hu ↦ ?_⟩
    rcases List.mem_append.1 hu with hu | hu
    · exact .inl (List.mem_of_mem_erase hu)
    · exact .inr (Nat.le_of_eq (List.mem_singleton.1 hu).symm)

end SyncStage

namespace Course

variable {w w' : Course} {h : Happening} {i j : Nat}

/-! ### Tickets ascend -/

/-- Tickets ascend as syncs get their pictures, and as they submit. -/
structure Orderly (w : Course) : Prop where
  ticket_lt : ∀ {i t a}, ⟨i, .captured t a⟩ ∈ w.past → t < w.session.lock.tickets
  /-- Nobody gets a picture twice. -/
  captured : w.past.Pairwise fun d e ↦ ∀ t a u b, d.act = .captured t a → e.act = .captured u b →
    t < u ∧ d.caller ≠ e.caller
  submitted : w.past.Pairwise fun d e ↦ ∀ t p u q, d.act = .submitted t p → e.act = .submitted u q →
    t < u
  own : ∀ {i t p}, ⟨i, .submitted t p⟩ ∈ w.past →
    (∃ a, ⟨i, .captured t a⟩ ∈ w.past) ∧ ⟨i, .serialized p.workflow⟩ ∈ w.past
  /-- Whoever is in line comes after all who have submitted. -/
  le_line : ∀ {i t p}, ⟨i, .submitted t p⟩ ∈ w.past → ∀ u ∈ w.session.lock.line, t ≤ u

/-- A ticket is of one sync. -/
theorem Orderly.caller_eq (hw : w.Orderly) {t : Nat} {a b : Except Failure (Option String)}
    (hi : ⟨i, .captured t a⟩ ∈ w.past) (hj : ⟨j, .captured t b⟩ ∈ w.past) : i = j := by
  have heq : (⟨i, .captured t a⟩ : Deed) = ⟨j, .captured t b⟩ := by
    refine eq_of_not_rel hw.captured hi hj (fun hlt ↦ ?_) fun hlt ↦ ?_
    · exact Nat.lt_irrefl t (hlt _ _ _ _ rfl rfl).1
    · exact Nat.lt_irrefl t (hlt _ _ _ _ rfl rfl).1
  exact congrArg Deed.caller heq

/-- And a sync joins the line with one ticket only. -/
theorem Orderly.ticket_eq (hw : w.Orderly) {t u : Nat} {a b : Except Failure (Option String)}
    (ht : ⟨i, .captured t a⟩ ∈ w.past) (hu : ⟨i, .captured u b⟩ ∈ w.past) : t = u := by
  have heq : (⟨i, .captured t a⟩ : Deed) = ⟨i, .captured u b⟩ := by
    refine eq_of_not_rel hw.captured ht hu (fun hne ↦ ?_) fun hne ↦ ?_
    · exact (hne _ _ _ _ rfl rfl).2 rfl
    · exact (hne _ _ _ _ rfl rfl).2 rfl
  exact (Act.captured.inj (congrArg Deed.act heq)).1

theorem orderly_ofProject (settings : Settings) (p : Project) (clock : Moment) :
    (ofProject settings p clock).Orderly :=
  ⟨nofun, .nil, .nil, nofun, nofun⟩

/-- One step keeps the captures and submissions in the order of the tickets. -/
theorem Orderly.step (hw : w.Orderly) (hq : w.Queued) (hr : w.Recorded) (hstep : Step w h w') :
    w'.Orderly := by
  cases hstep with
  | enter session stages calls past =>
    exact ⟨session ▸ past ▸ hw.ticket_lt, past ▸ hw.captured, past ▸ hw.submitted, past ▸ hw.own,
      session ▸ past ▸ hw.le_line⟩
  | @change _ _ i stage next a caller before change stages calls past =>
    have hrecord := hr.record before
    obtain ⟨htickets, hline⟩ := change.lockUse.tickets_le
    refine ⟨fun hd ↦ ?_, ?_, ?_, fun hd ↦ ?_, fun hd ↦ ?_⟩
    · rw [past, mem_append_deed] at hd
      rcases hd with hd | ⟨act, rfl, hd⟩
      · exact Nat.lt_of_lt_of_le (hw.ticket_lt hd) htickets
      · obtain ⟨-, rfl⟩ := Deed.mk.inj hd
        obtain ⟨-, rfl, hlock⟩ := change.of_captured
        rw [hlock]
        exact Nat.lt_succ_self _
    · rw [past, pairwise_append_deed]
      refine ⟨hw.captured, ?_⟩
      rintro act rfl ⟨k, act'⟩ hd t a u b rfl rfl
      obtain ⟨⟨sw, rfl⟩, rfl, -⟩ := change.of_captured
      refine ⟨hw.ticket_lt hd, ?_⟩
      -- a sync that has had its picture for long would be at another place
      rintro rfl
      rw [← mem_actsOf] at hd
      generalize w.actsOf k = acts at hd hrecord
      cases hrecord
      simp at hd
    · rw [past, pairwise_append_deed]
      refine ⟨hw.submitted, ?_⟩
      rintro act rfl ⟨k, act'⟩ hd t p u q rfl rfl
      obtain ⟨⟨g, sw, pic, prev, rfl, -⟩, -⟩ := change.of_submitted
      obtain ⟨⟨a, ha⟩, -, hfresh⟩ := hrecord.of_stopping
      have hinLine : u ∈ w.session.lock.line :=
        hq.serves.inLine (ticketOf_of_held? before rfl)
      refine Nat.lt_of_le_of_ne (hw.le_line hd u hinLine) ?_
      rintro rfl
      -- the ticket would be the one of the sync itself, which has not submitted yet
      obtain ⟨⟨a', ha'⟩, -⟩ := hw.own hd
      obtain rfl := hw.caller_eq ha' (mem_actsOf.1 ha)
      exact hfresh _ _ (mem_actsOf.2 hd)
    · rw [past, mem_append_deed] at hd ⊢
      rcases hd with hd | ⟨act, rfl, hd⟩
      · obtain ⟨⟨a, ha⟩, hs⟩ := hw.own hd
        exact ⟨⟨a, List.mem_append_left _ ha⟩, .inl hs⟩
      · obtain ⟨rfl, rfl⟩ := Deed.mk.inj hd
        obtain ⟨⟨g, sw, pic, prev, rfl, rfl⟩, -⟩ := change.of_submitted
        obtain ⟨⟨a, ha⟩, hs, -⟩ := hrecord.of_stopping
        exact ⟨⟨a, List.mem_append_left _ (mem_actsOf.1 ha)⟩, .inl (mem_actsOf.1 hs)⟩
    · intro u hu
      rw [past, mem_append_deed] at hd
      rcases hd with hd | ⟨act, rfl, hd⟩
      · rcases hline u hu with hu | hu
        · exact hw.le_line hd u hu
        · obtain ⟨⟨a, ha⟩, -⟩ := hw.own hd
          exact Nat.le_trans (Nat.le_of_lt (hw.ticket_lt ha)) hu
      · obtain ⟨rfl, rfl⟩ := Deed.mk.inj hd
        obtain ⟨⟨g, sw, pic, prev, rfl, -⟩, hlock⟩ := change.of_submitted
        rw [hlock] at hu
        exact hq.serves.le_of_isHeldBy (hq.held before rfl) hu
  | aside session stages calls past =>
    exact ⟨session.lock ▸ past ▸ hw.ticket_lt, past ▸ hw.captured, past ▸ hw.submitted,
      past ▸ hw.own, session.lock ▸ past ▸ hw.le_line⟩

/-! ### The order of submissions -/

/-- **The lower ticket submits first**, of those who submit. -/
theorem Orderly.before_isSubmission (hw : w.Orderly) {t u : Nat} {p q : Project}
    (hi : ⟨i, .submitted t p⟩ ∈ w.past) (hj : ⟨j, .submitted u q⟩ ∈ w.past) (hlt : t < u) :
    w.Before Act.isSubmission i j := by
  have hne : (⟨i, .submitted t p⟩ : Deed) ≠ ⟨j, .submitted u q⟩ := fun heq ↦
    Nat.ne_of_lt hlt (Act.submitted.inj (congrArg Deed.act heq)).1
  have hsub := pair_sublist hw.submitted hi hj hne fun hgt ↦
    Nat.lt_asymm hlt (hgt _ _ _ _ rfl rfl)
  exact ⟨_, _, rfl, rfl, hsub⟩

/-- Of two captures, the one with the smaller ticket came first. -/
theorem Orderly.before_isCapture (hw : w.Orderly) {t u : Nat} {a b : Except Failure (Option String)}
    (hi : ⟨i, .captured t a⟩ ∈ w.past) (hj : ⟨j, .captured u b⟩ ∈ w.past) (hlt : t < u) :
    w.Before Act.isCapture i j := by
  have hne : (⟨i, .captured t a⟩ : Deed) ≠ ⟨j, .captured u b⟩ := fun heq ↦
    Nat.ne_of_lt hlt (Act.captured.inj (congrArg Deed.act heq)).1
  have hsub := pair_sublist hw.captured hi hj hne fun hgt ↦
    Nat.lt_asymm hlt (hgt _ _ _ _ rfl rfl).1
  exact ⟨_, _, rfl, rfl, hsub⟩

/-- Two captures in some order are two deeds with tickets. -/
theorem exists_of_before_isCapture (hij : w.Before Act.isCapture i j) :
    ∃ t a u b, [⟨i, .captured t a⟩, ⟨j, .captured u b⟩].Sublist w.past := by
  obtain ⟨a, b, ha, hb, hsub⟩ := hij
  cases a <;> cases ha
  cases b <;> cases hb
  exact ⟨_, _, _, _, hsub⟩

/-- Two submissions in some order are two deeds with tickets. -/
theorem exists_of_before_isSubmission (hij : w.Before Act.isSubmission i j) :
    ∃ t p u q, [⟨i, .submitted t p⟩, ⟨j, .submitted u q⟩].Sublist w.past := by
  obtain ⟨a, b, ha, hb, hsub⟩ := hij
  cases a <;> cases ha
  cases b <;> cases hb
  exact ⟨_, _, _, _, hsub⟩

theorem exists_of_has_isSubmission (hi : w.Has Act.isSubmission i) :
    ∃ t p, ⟨i, .submitted t p⟩ ∈ w.past := by
  obtain ⟨a, ha, hmem⟩ := hi
  cases a <;> cases ha
  exact ⟨_, _, hmem⟩

/-- **Of two syncs that submit, the one that got its picture first submits first.** -/
theorem Orderly.isCapture_iff (hw : w.Orderly) (hi : w.Has Act.isSubmission i)
    (hj : w.Has Act.isSubmission j) :
    w.Before Act.isCapture i j ↔ w.Before Act.isSubmission i j := by
  constructor
  · -- whoever submits has the ticket that he got with his picture
    intro hij
    obtain ⟨t, a, u, b, hsub⟩ := exists_of_before_isCapture hij
    have hlt := (hw.captured.forall_sublist hsub _ _ _ _ rfl rfl).1
    obtain ⟨t', p, hp⟩ := exists_of_has_isSubmission hi
    obtain ⟨u', q, hq⟩ := exists_of_has_isSubmission hj
    obtain ⟨⟨a', ha'⟩, -⟩ := hw.own hp
    obtain ⟨⟨b', hb'⟩, -⟩ := hw.own hq
    obtain rfl := hw.ticket_eq ha' (mem_of_pair_sublist hsub).1
    obtain rfl := hw.ticket_eq hb' (mem_of_pair_sublist hsub).2
    exact hw.before_isSubmission hp hq hlt
  · intro hij
    obtain ⟨t, p, u, q, hsub⟩ := exists_of_before_isSubmission hij
    have hlt := hw.submitted.forall_sublist hsub _ _ _ _ rfl rfl
    obtain ⟨⟨a, ha⟩, -⟩ := hw.own (mem_of_pair_sublist hsub).1
    obtain ⟨⟨b, hb⟩, -⟩ := hw.own (mem_of_pair_sublist hsub).2
    exact hw.before_isCapture ha hb hlt

variable (settings : Settings) (p : Project) (clock : Moment) (hs : List Happening)

/-- After every run the captures and submissions are in the order of the tickets. -/
theorem orderly_run : ((ofProject settings p clock).run hs).Orderly :=
  run_induction (orderly_ofProject settings p clock)
    (fun hw hstep ↦
      hw.step (queued_run settings p clock _) (recorded_run settings p clock _) hstep) hs

/-- In which order syncs submit, and what. -/
structure InOrder (w : Course) : Prop where
  /-- Of two that submit, the one that got its picture first submits first. -/
  order : ∀ i j, w.Has Act.isSubmission i → w.Has Act.isSubmission j →
    (w.Before Act.isCapture i j ↔ w.Before Act.isSubmission i j)
  /-- Each submits the snapshot it took itself. -/
  snapshot : ∀ i t q, ⟨i, .submitted t q⟩ ∈ w.past → ⟨i, .serialized q.workflow⟩ ∈ w.past

/-- **Syncs submit in the order in which they got their pictures,** however long that took and
whenever they took their snapshots. -/
theorem submissions_follow_captures : InOrder ((ofProject settings p clock).run hs) := by
  have hw := orderly_run settings p clock hs
  exact ⟨fun i j hi hj ↦ hw.isCapture_iff hi hj, fun i t q hq ↦ (hw.own hq).2⟩

/-! ### Snapshots may overtake each other -/

/-- A graph with one edge. -/
def edited : EditorGraph := { EditorGraph.empty with edges := [⟨"e", "a", "out", "b", "in"⟩] }

/-- The backend cannot be reached. -/
def noBackend : (r : Request) → Except Failure r.Answer
  | .thumbnail => .ok none
  | _ => .error (.transport .connectionClosed)

/-- Two syncs take their snapshots, the graph being edited in between; the second gets its picture
first. -/
def overtakingCourse : Course :=
  (ofProject .default (.carrying .empty) default).run
    [.sync, .turn 0, .edit edited, .sync, .turn 1, .answer 1 noBackend, .turn 1, .turn 1, .turn 1,
      .answer 1 noBackend, .turn 1, .answer 0 noBackend, .turn 0, .turn 0, .turn 0]

/-- **The order of the snapshots is not the order of the submissions.** Here the first snapshot is
submitted last, and the newer one is gone from the project. -/
theorem not_submissions_follow_serializations :
    ¬ ∀ (settings : Settings) (p : Project) (clock : Moment) (hs : List Happening) (i j : Nat),
      ((ofProject settings p clock).run hs).Before Act.isSerialization i j →
      ((ofProject settings p clock).run hs).Has Act.isSubmission i →
      ((ofProject settings p clock).run hs).Has Act.isSubmission j →
      ((ofProject settings p clock).run hs).Before Act.isSubmission i j := by
  intro hall
  have hserialized : overtakingCourse.Before Act.isSerialization 0 1 := by decide +kernel
  have hsubmitted : overtakingCourse.Before Act.isSubmission 1 0 := by decide +kernel
  have hnot : ¬ overtakingCourse.Before Act.isSubmission 0 1 := by decide +kernel
  obtain ⟨t, p, u, q, hsub⟩ := exists_of_before_isSubmission hsubmitted
  obtain ⟨hone, hzero⟩ := mem_of_pair_sublist hsub
  exact hnot (hall _ _ _ _ 0 1 hserialized ⟨_, rfl, hzero⟩ ⟨_, rfl, hone⟩)

end Course

end GraphSession
