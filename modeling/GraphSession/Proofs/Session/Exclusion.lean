import Mathlib.Data.List.Pairwise
import GraphSession.Proofs.Session.Course

/-!
# Who has the lock

The lock of a session serves its syncs one after the other, and every sync that got it has a
generation of its own.

* `Lock.Serves`: the tickets in line ascend, and no two syncs have the same. Joining and leaving
  keep this, wherever in the line the ticket stands (`Serves.join`, `Serves.leave`), so a sync that
  is given up while it waits does no harm.
* `Course.Queued`: whoever works with the lock in hand is the first of the line. Hence two syncs
  never do (`Queued.holder_unique`).
* `Course.Numbered`: a sync that works with the lock in hand is of the current generation, and no
  two syncs are of the same. Hence a sync of the current generation is the last one that took the
  lock.
-/

namespace GraphSession

namespace Lock

/-- The tickets in line ascend, and those who wait or hold the lock have different ones. -/
structure Serves (l : Lock) (ticketOf : Nat → Option Nat) : Prop where
  sorted : l.line.Pairwise (· < ·)
  issued : ∀ t ∈ l.line, t < l.tickets
  inLine : ∀ {i t}, ticketOf i = some t → t ∈ l.line
  unique : ∀ {i j t}, ticketOf i = some t → ticketOf j = some t → i = j

variable {l l' : Lock} {ticketOf : Nat → Option Nat} {i t u : Nat}

/-- Whoever joins the line gets a ticket of its own. -/
theorem Serves.join (h : l.Serves ticketOf) (i : Nat) :
    l.join.2.Serves (Function.update ticketOf i (some l.tickets)) where
  sorted := by
    refine List.pairwise_append.2 ⟨h.sorted, List.pairwise_singleton _ _, fun a ha b hb ↦ ?_⟩
    rw [List.mem_singleton.1 hb]
    exact h.issued a ha
  issued := by
    intro t ht
    rcases List.mem_append.1 ht with ht | ht
    · exact Nat.lt_succ_of_lt (h.issued t ht)
    · rw [List.mem_singleton.1 ht]
      exact Nat.lt_succ_self _
  inLine := by
    intro j t hj
    rcases update_eq_some_iff.1 hj with ⟨-, ht⟩ | ⟨-, hj'⟩
    · exact List.mem_append_right _ (List.mem_singleton.2 (Option.some.inj ht).symm)
    · exact List.mem_append_left _ (h.inLine hj')
  unique := by
    -- the new ticket is in nobody's hand yet
    have hnew : ∀ j, ticketOf j ≠ some l.tickets := fun j hj ↦
      absurd (h.issued _ (h.inLine hj)) (Nat.lt_irrefl _)
    intro j k t hj hk
    rcases update_eq_some_iff.1 hj with ⟨hji, ht⟩ | ⟨-, hj'⟩ <;>
      rcases update_eq_some_iff.1 hk with ⟨hki, ht'⟩ | ⟨-, hk'⟩
    · exact hji.trans hki.symm
    · exact absurd (ht ▸ hk') (hnew k)
    · exact absurd (ht' ▸ hj') (hnew j)
    · exact h.unique hj' hk'

/-- Whoever leaves the line takes its ticket along. -/
theorem Serves.leave (h : l.Serves ticketOf) (hi : ticketOf i = some t) :
    (l.leave t).Serves (Function.update ticketOf i none) where
  sorted := h.sorted.sublist List.erase_sublist
  issued := fun u hu ↦ h.issued u (List.mem_of_mem_erase hu)
  inLine := by
    intro j u hj
    obtain ⟨-, hnone⟩ | ⟨hji, hj⟩ := update_eq_some_iff.1 hj
    · cases hnone
    · refine (List.mem_erase_of_ne ?_).2 (h.inLine hj)
      rintro rfl
      exact hji (h.unique hj hi)
  unique := by
    intro j k u hj hk
    obtain ⟨-, hnone⟩ | ⟨-, hj⟩ := update_eq_some_iff.1 hj
    · cases hnone
    · obtain ⟨-, hnone⟩ | ⟨-, hk⟩ := update_eq_some_iff.1 hk
      · cases hnone
      · exact h.unique hj hk

/-- The head of the line comes before all others. -/
theorem Serves.le_of_isHeldBy (h : l.Serves ticketOf) (ht : l.isHeldBy t = true) (hu : u ∈ l.line) :
    t ≤ u := by
  obtain ⟨rest, hline⟩ := List.head?_eq_some_iff.1 (of_decide_eq_true ht)
  have hsorted := h.sorted
  rw [hline] at hsorted hu
  rcases List.mem_cons.1 hu with rfl | hu
  · exact Nat.le_refl _
  · exact Nat.le_of_lt (List.rel_of_pairwise_cons hsorted hu)

/-- Nobody loses the lock because another joins the line. -/
theorem isHeldBy_join (h : l.isHeldBy t = true) : l.join.2.isHeldBy t = true := by
  obtain ⟨rest, hline⟩ := List.head?_eq_some_iff.1 (of_decide_eq_true h)
  simp [join, isHeldBy, hline]

/-- Nobody loses the lock because another leaves the line. -/
theorem isHeldBy_leave (h : l.isHeldBy t = true) (hne : t ≠ u) : (l.leave u).isHeldBy t = true := by
  obtain ⟨rest, hline⟩ := List.head?_eq_some_iff.1 (of_decide_eq_true h)
  simp [leave, isHeldBy, hline, List.erase_cons_tail, hne]

/-- The lock is held by one ticket at most. -/
theorem eq_of_isHeldBy (ht : l.isHeldBy t = true) (hu : l.isHeldBy u = true) : t = u :=
  Option.some.inj ((of_decide_eq_true ht).symm.trans (of_decide_eq_true hu))

end Lock

namespace SyncStage

/-- The ticket of a sync that waits for the lock or has it. -/
def ticket? : SyncStage → Option Nat
  | queued t _ _ | stopping t _ _ _ _ | submitting t _ _ | answered t _ _
  | returning t _ _ => some t
  | called | capturing _ | captured _ _ | following _ _ => none

/-- The ticket of a sync that works with the lock in hand. -/
def held? : SyncStage → Option Nat
  | stopping t _ _ _ _ | submitting t _ _ | answered t _ _ => some t
  | _ => none

/-- The generation of a sync, once it has taken the lock. -/
def generation? : SyncStage → Option Nat
  | stopping _ g _ _ _ | submitting _ g _ | answered _ g _ | following g _
  | returning _ g _ => some g
  | called | capturing _ | captured _ _ | queued _ _ _ => none

/-- A sync that has the lock in hand has its ticket. -/
theorem ticket?_of_held? {stage : SyncStage} {t : Nat} (h : stage.held? = some t) :
    stage.ticket? = some t := by
  cases stage <;> first | exact h | cases h

/-- What becomes of the lock, and of the ticket of a sync, when something happens to the sync. -/
inductive LockUse (l : Lock) : Option Nat → Lock → Option Nat → Prop
  | keep (t : Option Nat) : LockUse l t l t
  | join : LockUse l none l.join.2 (some l.tickets)
  | leave (t : Nat) : LockUse l (some t) (l.leave t) none
  /-- Leaves the line and joins it again at the end. -/
  | rejoin (t : Nat) : LockUse l (some t) (l.leave t).join.2 (some l.tickets)

variable {s s' : Session} {stage : SyncStage} {next : Option SyncStage} {a : Option Act}

/-- **Nobody touches the lock but to join and to leave.** -/
theorem Change.lockUse (h : Change s stage s' next a) :
    LockUse s.lock stage.ticket? s'.lock (next.bind ticket?) := by
  cases h with
  | serialize => exact .keep none
  | picture => exact .keep none
  | queue => exact .join
  | begin => exact .keep _
  | submit => exact .keep _
  | refuse => exact .leave _
  | reply => exact .keep _
  | reject => exact .leave _
  | finish t g p s' released =>
    subst released
    -- the backend has run the project, and the sync joins the line again to come back
    exact .rejoin t
  | follow => exact .leave _
  | unfollow => exact .rejoin _
  | take => exact .keep none
  | pass => exact .keep none
  | comeBack => exact .join
  | writeBack t o held ended =>
    rw [noteTimeout_eq]
    exact .leave t
  | quit => exact .leave _
  | fail => exact .leave _
  | overtake => exact .leave _
  | abandon =>
    cases stage <;> first | exact .keep none | exact .leave _

namespace LockUse

variable {l l' : Lock} {t t' : Option Nat} {ticketOf : Nat → Option Nat} {i j u : Nat}

/-- However a sync uses the lock, the line still serves the tickets of all. -/
theorem serves (h : LockUse l t l' t') (hl : l.Serves ticketOf) (hi : ticketOf i = t) :
    l'.Serves (Function.update ticketOf i t') := by
  cases h with
  | keep => rwa [← hi, Function.update_eq_self]
  | join => exact hl.join i
  | leave => exact hl.leave hi
  | rejoin =>
    have hrejoined := (hl.leave hi).join i
    rwa [Function.update_idem] at hrejoined

/-- The others keep the lock. -/
theorem isHeldBy (h : LockUse l t l' t') (hl : l.Serves ticketOf) (hi : ticketOf i = t)
    (hji : j ≠ i) (hj : ticketOf j = some u) (hheld : l.isHeldBy u = true) :
    l'.isHeldBy u = true := by
  cases h with
  | keep => exact hheld
  | join => exact Lock.isHeldBy_join hheld
  | leave t =>
    refine Lock.isHeldBy_leave hheld fun hut ↦ hji (hl.unique hj (hut ▸ hi))
  | rejoin t =>
    refine Lock.isHeldBy_join (Lock.isHeldBy_leave hheld fun hut ↦ hji (hl.unique hj (hut ▸ hi)))

end LockUse

/-- **A sync gets its generation with the lock, and keeps it.** Nothing else moves the
generation. -/
theorem Change.numbering (h : Change s stage s' next a) :
    s'.generation = s.generation ∧
        (∀ stage', next = some stage' → stage'.generation? = stage.generation? ∧
          ∀ t, stage'.held? = some t → stage.held? = some t) ∨
      ∃ t w pic before, stage = .queued t w pic ∧ s.lock.isHeldBy t = true ∧
        s'.generation = s.generation + 1 ∧
        next = some (.stopping t (s.generation + 1) w pic before) := by
  cases h with
  | begin t w pic held => exact .inr ⟨t, w, pic, _, rfl, held, rfl, rfl⟩
  | writeBack t o held ended =>
    rw [noteTimeout_eq]
    exact .inl ⟨rfl, fun _ hnext ↦ by cases hnext⟩
  | abandon => exact .inl ⟨by cases stage <;> rfl, fun _ hnext ↦ by cases hnext⟩
  | finish t g p s' released =>
    subst released
    refine .inl ⟨rfl, fun _ hnext ↦ ?_⟩
    obtain rfl := Option.some.inj hnext
    exact ⟨rfl, fun _ ht ↦ by cases ht⟩
  | submit | reply =>
    refine .inl ⟨rfl, fun _ hnext ↦ ?_⟩
    obtain rfl := Option.some.inj hnext
    exact ⟨rfl, fun _ ht ↦ ht⟩
  | refuse | reject | quit | fail | overtake => exact .inl ⟨rfl, fun _ hnext ↦ by cases hnext⟩
  | _ =>
    refine .inl ⟨rfl, fun _ hnext ↦ ?_⟩
    obtain rfl := Option.some.inj hnext
    exact ⟨rfl, fun _ ht ↦ by cases ht⟩

/-- Whoever goes on with the lock in hand has the lock. -/
theorem Change.isHeldBy (h : Change s stage s' next a) {stage' : SyncStage} {t : Nat}
    (hnext : next = some stage') (ht : stage'.held? = some t)
    (hbefore : ∀ u, stage.held? = some u → s.lock.isHeldBy u = true) :
    s'.lock.isHeldBy t = true := by
  cases h with
  | begin u w pic held =>
    obtain rfl := Option.some.inj hnext
    obtain rfl := Option.some.inj ht
    exact held
  | submit | reply =>
    obtain rfl := Option.some.inj hnext
    exact hbefore t ht
  | refuse | reject | writeBack | quit | fail | overtake | abandon => cases hnext
  | _ =>
    obtain rfl := Option.some.inj hnext
    cases ht

end SyncStage

namespace Course

variable {w w' : Course} {h : Happening} {i j : Nat}

/-- The ticket of a sync in flight. -/
def ticketOf (w : Course) (i : Nat) : Option Nat := (w.stage? i).bind SyncStage.ticket?

theorem ticketOf_of_stage? {stage : SyncStage} (hi : w.stage? i = some stage) :
    w.ticketOf i = stage.ticket? := by
  rw [ticketOf, hi]
  rfl

theorem ticketOf_of_update {next : Option SyncStage}
    (stages : w'.stage? = Function.update w.stage? i next) :
    w'.ticketOf = Function.update w.ticketOf i (next.bind SyncStage.ticket?) :=
  bind_of_update stages SyncStage.ticket?

/-- A call that was not made yet has no ticket. -/
theorem ticketOf_length (w : Course) : w.ticketOf w.calls.length = none := by
  rw [ticketOf, stage?_eq_none_of_length_le (Nat.le_refl _)]
  rfl

theorem ticketOf_congr (stages : w'.stage? = w.stage?) : w'.ticketOf = w.ticketOf := by
  funext j
  rw [ticketOf, ticketOf, stages]

/-! ### The line -/

/-- The lock serves the syncs, and those that work with the lock in hand have it. -/
structure Queued (w : Course) : Prop where
  serves : w.session.lock.Serves w.ticketOf
  held : ∀ {i stage t}, w.stage? i = some stage → stage.held? = some t →
    w.session.lock.isHeldBy t = true

theorem ticketOf_of_held? {stage : SyncStage} {t : Nat} (hi : w.stage? i = some stage)
    (ht : stage.held? = some t) : w.ticketOf i = some t := by
  rw [ticketOf_of_stage? hi]
  exact SyncStage.ticket?_of_held? ht

/-- **Two syncs never work with the lock in hand.** -/
theorem Queued.holder_unique (hw : w.Queued) {a b : SyncStage} {t u : Nat}
    (hi : w.stage? i = some a) (ha : a.held? = some t) (hj : w.stage? j = some b)
    (hb : b.held? = some u) : i = j := by
  obtain rfl := Lock.eq_of_isHeldBy (hw.held hi ha) (hw.held hj hb)
  exact hw.serves.unique (ticketOf_of_held? hi ha) (ticketOf_of_held? hj hb)

theorem queued_ofProject (settings : Settings) (p : Project) (clock : Moment) :
    (ofProject settings p clock).Queued where
  serves := ⟨.nil, nofun, nofun, nofun⟩
  held := nofun

/-- One step leaves the syncs in line, and the lock with the one that works. -/
theorem Queued.step (hw : w.Queued) (hstep : Step w h w') : w'.Queued := by
  cases hstep with
  | enter session stages calls past =>
    refine ⟨?_, fun hj hu ↦ ?_⟩
    · -- nobody has joined the line yet
      rw [session, ticketOf_of_update stages]
      exact SyncStage.LockUse.serves (.keep none) hw.serves w.ticketOf_length
    · rw [session]
      rcases stage?_of_enter stages hj with rfl | hj
      · cases hu
      · exact hw.held hj hu
  | @change _ _ i stage next a caller before change stages calls past =>
    have huse := change.lockUse
    have hi : w.ticketOf i = stage.ticket? := ticketOf_of_stage? before
    refine ⟨?_, fun hj hu ↦ ?_⟩
    · rw [ticketOf_of_update stages]
      exact huse.serves hw.serves hi
    · rcases stage?_cases stages hj with ⟨-, hnext⟩ | ⟨hji, hj⟩
      · exact change.isHeldBy hnext hu fun t ht ↦ hw.held before ht
      · -- another sync keeps the lock, whatever this one does with its ticket
        exact huse.isHeldBy hw.serves hi hji (ticketOf_of_held? hj hu) (hw.held hj hu)
  | aside session stages calls past =>
    refine ⟨?_, fun hj hu ↦ ?_⟩
    · rw [ticketOf_congr stages, session.lock]
      exact hw.serves
    · rw [session.lock]
      exact hw.held (stages ▸ hj) hu

/-! ### Generations -/

/-- A sync is of the generation that it began, or of none yet. -/
structure Numbered (w : Course) : Prop where
  generation_le : ∀ {i stage g}, w.stage? i = some stage → stage.generation? = some g →
    g ≤ w.session.generation
  unique : ∀ {i j a b g}, w.stage? i = some a → a.generation? = some g → w.stage? j = some b →
    b.generation? = some g → i = j
  /-- Whoever works with the lock in hand is of the current generation. -/
  current : ∀ {i stage t}, w.stage? i = some stage → stage.held? = some t →
    stage.generation? = some w.session.generation

theorem numbered_ofProject (settings : Settings) (p : Project) (clock : Moment) :
    (ofProject settings p clock).Numbered :=
  ⟨nofun, nofun, nofun⟩

/-- Nobody begins. -/
theorem Numbered.of_same (hw : w.Numbered) (hgen : w'.session.generation = w.session.generation)
    (hold : ∀ {j b}, w'.stage? j = some b → b = .called ∨ ∃ b', w.stage? j = some b' ∧
      b.generation? = b'.generation? ∧ ∀ t, b.held? = some t → b'.held? = some t) :
    w'.Numbered := by
  -- a sync that was just called for has neither lock nor generation
  have hnumber : ∀ {j b g}, w'.stage? j = some b → b.generation? = some g →
      ∃ b', w.stage? j = some b' ∧ b'.generation? = some g := by
    intro j b g hj hg
    rcases hold hj with rfl | ⟨b', hj, hsame, -⟩
    · cases hg
    · exact ⟨b', hj, hsame ▸ hg⟩
  refine ⟨fun hj hg ↦ ?_, fun hj hg hk hg' ↦ ?_, fun hj ht ↦ ?_⟩
  · obtain ⟨b, hj, hg⟩ := hnumber hj hg
    rw [hgen]
    exact hw.generation_le hj hg
  · obtain ⟨b, hj, hg⟩ := hnumber hj hg
    obtain ⟨b', hk, hg'⟩ := hnumber hk hg'
    exact hw.unique hj hg hk hg'
  · rw [hgen]
    rcases hold hj with rfl | ⟨b', hj, hsame, hheld⟩
    · cases ht
    · rw [hsame]
      exact hw.current hj (hheld _ ht)

/-- One sync begins, who has the lock now. -/
theorem Numbered.of_begin (hw : w.Numbered) (hq : w.Queued) {t : Nat} {sw : Workflow}
    {pic : Option String} {prev : Option Nat} (before : w.stage? i = some (.queued t sw pic))
    (ht : w.session.lock.isHeldBy t = true)
    (hgen : w'.session.generation = w.session.generation + 1)
    (stages : w'.stage? =
      Function.update w.stage? i (some (.stopping t (w.session.generation + 1) sw pic prev))) :
    w'.Numbered := by
  -- the one who begins has the new generation to himself
  have hnumber : ∀ {j b g}, w'.stage? j = some b → b.generation? = some g →
      j = i ∧ g = w.session.generation + 1 ∨ w.stage? j = some b ∧ g ≤ w.session.generation := by
    intro j b g hj hg
    rcases stage?_cases stages hj with ⟨rfl, hnext⟩ | ⟨-, hj⟩
    · rw [← Option.some.inj hnext] at hg
      exact .inl ⟨rfl, (Option.some.inj hg).symm⟩
    · exact .inr ⟨hj, hw.generation_le hj hg⟩
  refine ⟨fun hj hg ↦ ?_, fun hj hg hk hg' ↦ ?_, fun {j b u} hj hu ↦ ?_⟩
  · rw [hgen]
    rcases hnumber hj hg with ⟨-, rfl⟩ | ⟨-, hle⟩ <;> omega
  · rcases hnumber hj hg with ⟨rfl, rfl⟩ | ⟨hj, hle⟩ <;>
      rcases hnumber hk hg' with ⟨rfl, hnew⟩ | ⟨hk, hle'⟩
    · rfl
    · omega
    · omega
    · exact hw.unique hj hg hk hg'
  · rw [hgen]
    rcases stage?_cases stages hj with ⟨rfl, hnext⟩ | ⟨hji, hj⟩
    · rw [← Option.some.inj hnext]
      rfl
    · -- nobody else has the lock in hand
      have hi : w.ticketOf i = some t := ticketOf_of_stage? before
      obtain rfl := Lock.eq_of_isHeldBy ht (hq.held hj hu)
      exact absurd (hq.serves.unique (ticketOf_of_held? hj hu) hi) hji

/-- One step leaves the generation to whoever took the lock last. -/
theorem Numbered.step (hw : w.Numbered) (hq : w.Queued) (hstep : Step w h w') : w'.Numbered := by
  cases hstep with
  | enter session stages calls past =>
    refine hw.of_same (by rw [session]) fun hj ↦ ?_
    rcases stage?_of_enter stages hj with hcalled | hj
    · exact .inl hcalled
    · exact .inr ⟨_, hj, rfl, fun _ ht ↦ ht⟩
  | @change _ _ i stage next a caller before change stages calls past =>
    rcases change.numbering with ⟨hgen, hsame⟩ | ⟨t, sw, pic, prev, rfl, ht, hgen, rfl⟩
    · refine hw.of_same hgen fun hj ↦ .inr ?_
      rcases stage?_cases stages hj with ⟨rfl, hnext⟩ | ⟨-, hj⟩
      · exact ⟨stage, before, hsame _ hnext⟩
      · exact ⟨_, hj, rfl, fun _ ht ↦ ht⟩
    · exact hw.of_begin hq before ht hgen stages
  | aside session stages calls past =>
    exact hw.of_same session.generation fun hj ↦ .inr ⟨_, stages ▸ hj, rfl, fun _ ht ↦ ht⟩

/-! ### In every course -/

variable (settings : Settings) (p : Project) (clock : Moment) (hs : List Happening)

/-- After every run the syncs are in line. -/
theorem queued_run : ((ofProject settings p clock).run hs).Queued :=
  run_induction (queued_ofProject settings p clock) (fun hw hstep ↦ hw.step hstep) hs

/-- After every run the generations of the syncs are numbered. -/
theorem numbered_run : ((ofProject settings p clock).run hs).Numbered :=
  run_induction (numbered_ofProject settings p clock)
    (fun hw hstep ↦ hw.step (queued_run settings p clock _) hstep) hs

end Course

end GraphSession
