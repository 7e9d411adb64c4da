import GraphSession.Proofs.Task.Course
import GraphSession.Proofs.Task.Intake

/-!
# One task at a time

In every course the slot and the calls agree (`Seating`): either there is no task in the slot,
nobody follows one and no guard is left, or exactly one call follows a task, that task is the one in
the slot and has the only guard. The task in the slot is always the one that was registered last, so
tickets tell the tasks of a course apart.
-/

namespace GraphSession

namespace TaskCourse

/-- The slot and the calls agree. -/
inductive Seating (w : TaskCourse) : Prop
  /-- No task is followed. -/
  | vacant (active : w.desk.active = none) (unfinished : w.desk.slot.unfinished = [])
      (followers : w.follower? = fun _ ↦ none)
  /-- One is, by one call. -/
  | occupied (i : Nat) (m : Monitor) (active : w.desk.active = some ⟨m.taskId, m.ticket⟩)
      (unfinished : w.desk.slot.unfinished = [m.ticket])
      (followers : w.follower? = Function.update (fun _ ↦ none) i (some m))
      (latest : m.ticket + 1 = w.desk.tickets)

/-- What is known of a call that follows a task. -/
structure Seated (w : TaskCourse) (i : Nat) (m : Monitor) : Prop where
  active : w.desk.active = some ⟨m.taskId, m.ticket⟩
  unfinished : w.desk.slot.unfinished = [m.ticket]
  followers : w.follower? = Function.update (fun _ ↦ none) i (some m)
  latest : m.ticket + 1 = w.desk.tickets

variable {w w' : TaskCourse} {h : TaskHappening} {i j : Nat} {m m' : Monitor}

namespace Seated

/-- Nobody else follows a task. -/
theorem eq (hi : w.Seated i m) (hj : w.follower? j = some m') : j = i ∧ m' = m := by
  rw [hi.followers] at hj
  obtain ⟨rfl, hm⟩ := update_none_eq_some_iff.1 hj
  exact ⟨rfl, (Option.some.inj hm).symm⟩

theorem ticket_lt (hi : w.Seated i m) : m.ticket < w.desk.tickets := by
  have := hi.latest
  omega

theorem ticket_eq {n : Nat} (hi : w.Seated i m) (hn : w.desk.tickets = n + 1) : m.ticket = n :=
  Nat.succ.inj (hi.latest.trans hn)

/-- What becomes of the call that follows a task is all that is followed then. -/
theorem update {c : Option Monitor} (hi : w.Seated i m)
    (followers : w'.follower? = Function.update w.follower? i c) :
    w'.follower? = Function.update (fun _ ↦ none) i c := by
  rw [followers, hi.followers, Function.update_idem]

theorem eq_of_update {c : Option Monitor} (hi : w.Seated i m)
    (followers : w'.follower? = Function.update w.follower? i c) (hj : w'.follower? j = some m') :
    j = i ∧ c = some m' :=
  update_none_eq_some_iff.1 (hi.update followers ▸ hj)

end Seated

namespace Seating

/-- Whoever follows a task is seated. -/
theorem of_follower? (hw : w.Seating) (hi : w.follower? i = some m) : w.Seated i m := by
  cases hw with
  | vacant active unfinished followers =>
    rw [followers] at hi
    cases hi
  | occupied j m' active unfinished followers latest =>
    rw [followers] at hi
    obtain ⟨rfl, hm⟩ := update_none_eq_some_iff.1 hi
    obtain rfl := Option.some.inj hm
    exact ⟨active, unfinished, followers, latest⟩

/-- The task in the slot is followed by somebody. -/
theorem of_active {a : ActiveTask} (hw : w.Seating) (ha : w.desk.active = some a) :
    ∃ i m, w.follower? i = some m ∧ a = ⟨m.taskId, m.ticket⟩ := by
  cases hw with
  | vacant active unfinished followers =>
    rw [active] at ha
    cases ha
  | occupied i m active unfinished followers latest =>
    refine ⟨i, m, ?_, Option.some.inj (ha.symm.trans active)⟩
    rw [followers, Function.update_self]

/-- With a vacant slot nobody follows a task, and no guard is left. -/
theorem of_vacant (hw : w.Seating) (ha : w.desk.active = none) :
    w.desk.slot.unfinished = [] ∧ w.follower? = fun _ ↦ none := by
  cases hw with
  | vacant active unfinished followers => exact ⟨unfinished, followers⟩
  | occupied i m active unfinished followers latest =>
    rw [active] at ha
    cases ha

/-- A task that has not ended is followed. -/
theorem of_unfinished {t : Nat} (hw : w.Seating) (ht : t ∈ w.desk.slot.unfinished) :
    ∃ i m, w.follower? i = some m ∧ m.ticket = t := by
  cases hw with
  | vacant active unfinished followers =>
    rw [unfinished] at ht
    cases ht
  | occupied i m active unfinished followers latest =>
    refine ⟨i, m, ?_, ?_⟩
    · rw [followers, Function.update_self]
    · rw [unfinished, List.mem_singleton] at ht
      exact ht.symm

theorem start (p : Project) (timeout : Nat) : (ofProject p timeout).Seating :=
  .vacant rfl rfl rfl

/-- One step leaves the slot and the calls in agreement. -/
theorem step (hw : w.Seating) (hstep : w.Step h w') : w'.Seating := by
  cases hstep with
  | enroll taskId free desk followers =>
    -- only a vacant slot takes a task in
    obtain ⟨unfinished, none⟩ := hw.of_vacant free
    have hslot : w'.desk.slot = _ := desk ▸ w.desk.slot_occupied taskId
    refine .occupied w.calls.length (.registered taskId w.desk.tickets) (congrArg Slot.active hslot)
      ?_ (none ▸ followers) ?_
    · rw [hslot, unfinished]
      rfl
    · rw [desk]
      rfl
  | @move _ i m m' text before move followers =>
    have seated := hw.of_follower? before
    have follows := move.follows
    refine .occupied i m' ?_ ?_ (seated.update followers) ?_
    · -- the task and the ticket stay the same, so it keeps the slot
      exact follows.taskId ▸ follows.ticket ▸ (congrArg Slot.active follows.slot).trans
        seated.active
    · rw [follows.slot, follows.ticket]
      exact seated.unfinished
    · rw [follows.ticket, follows.tickets]
      exact seated.latest
  | leave caller before leaves followers =>
    have seated := hw.of_follower? before
    -- the task that leaves was the only one, so its guard was the last
    have hslot := leaves.slot seated.active seated.unfinished
    refine .vacant (congrArg Slot.active hslot) (congrArg Slot.unfinished hslot) ?_
    rw [seated.update followers]
    exact Function.update_eq_self _ _
  | aside aside =>
    cases hw with
    | vacant active unfinished followers =>
      exact .vacant (aside.active ▸ active) (aside.unfinished ▸ unfinished)
        (aside.followers ▸ followers)
    | occupied i m active unfinished followers latest =>
      exact .occupied i m (aside.active ▸ active) (aside.unfinished ▸ unfinished)
        (aside.followers ▸ followers) (aside.tickets ▸ latest)

end Seating

/-- **In every course** the slot and the calls agree. -/
theorem seating_run (p : Project) (timeout : Nat) (hs : List TaskHappening) :
    ((ofProject p timeout).run hs).Seating :=
  run_induction (.start p timeout) Seating.step hs

/-- How a monitor in flight has come to where it is. -/
inductive Stems (w : TaskCourse) (w' : TaskCourse) (j : Nat) (m' : Monitor) : TaskHappening → Prop
  /-- Its task was registered. -/
  | enrolled (taskId : String) (registered : m' = .registered taskId w.desk.tickets)
      (free : w.desk.active = none) (desk : w'.desk = w.desk.occupied taskId)
      (past : w'.past = w.past) : Stems w w' j m' (.monitor taskId)
  /-- It has taken a turn. -/
  | moved {m : Monitor} {text : Option String} (before : w.follower? j = some m)
      (move : m.Move w.desk text w'.desk m')
      (past : w'.past = w.past ++
        [⟨m.ticket, text, w'.desk.published.drop w.desk.published.length⟩])
      (arrived : w'.arrived = w.arrived) (heard : w'.heard = w.heard) : Stems w w' j m' (.turn j)
  /-- It was there, and has been passed by. -/
  | passed {h : TaskHappening} (before : w.follower? j = some m') (aside : w.Aside h w') :
      Stems w w' j m' h

/-- As there is only one monitor, no other has come from anywhere else. -/
theorem Step.stems (hstep : w.Step h w') (hw : w.Seating) (hj : w'.follower? j = some m') :
    w.Stems w' j m' h := by
  cases hstep with
  | enroll taskId free desk followers past =>
    rw [followers, (hw.of_vacant free).2] at hj
    obtain ⟨-, hm⟩ := update_none_eq_some_iff.1 hj
    exact .enrolled taskId (Option.some.inj hm).symm free desk past
  | move before move followers past arrived heard =>
    obtain ⟨rfl, hm⟩ := (hw.of_follower? before).eq_of_update followers hj
    obtain rfl := Option.some.inj hm
    exact .moved before move past arrived heard
  | leave caller before leaves followers =>
    obtain ⟨-, hnone⟩ := (hw.of_follower? before).eq_of_update followers hj
    cases hnone
  | aside aside => exact .passed (aside.followers ▸ hj) aside

/-! ### Tickets of the past -/

/-- Tickets are never taken back. -/
theorem Step.tickets_le (hstep : w.Step h w') : w.desk.tickets ≤ w'.desk.tickets := by
  cases hstep with
  | enroll taskId free desk =>
    rw [desk]
    exact Nat.le_succ _
  | move before move => exact Nat.le_of_eq move.follows.tickets.symm
  | leave caller before leaves => exact Nat.le_of_eq leaves.tickets.symm
  | aside aside => exact Nat.le_of_eq aside.tickets.symm

/-- **The past is that of tasks that were registered.** -/
theorem ticket_lt_of_past (p : Project) (timeout : Nat) (hs : List TaskHappening) :
    ∀ e ∈ ((ofProject p timeout).run hs).past,
    e.ticket < ((ofProject p timeout).run hs).desk.tickets := by
  refine run_induction (P := fun w ↦ ∀ e ∈ w.past, e.ticket < w.desk.tickets) (by simp [ofProject])
    (fun {hs h w'} ih hstep ↦ ?_) hs
  have seating := seating_run p timeout hs
  -- each deed is of the task that was registered last, or of one before
  generalize (ofProject p timeout).run hs = w at ih hstep seating
  cases hstep with
  | enroll taskId free desk followers past =>
    rw [past, desk]
    exact fun e he ↦ Nat.lt_succ_of_lt (ih e he)
  | move before move followers past =>
    rw [past, move.follows.tickets]
    intro e he
    rcases List.mem_append.1 he with he | he
    · exact ih e he
    · rw [List.mem_singleton.1 he]
      exact (seating.of_follower? before).ticket_lt
  | leave caller before leaves followers past =>
    rw [past, leaves.tickets]
    intro e he
    rcases List.mem_append.1 he with he | he
    · exact ih e he
    · rw [List.mem_singleton.1 he]
      exact (seating.of_follower? before).ticket_lt
  | aside aside =>
    rw [aside.past, aside.tickets]
    exact ih

/-- Nothing has been done for a task that is still to come. -/
theorem textsOf_of_tickets_le {p : Project} {timeout t : Nat} {hs : List TaskHappening}
    (ht : ((ofProject p timeout).run hs).desk.tickets ≤ t) :
    ((ofProject p timeout).run hs).textsOf t = [] := by
  refine List.filterMap_eq_nil_iff.2 fun e he ↦ if_neg ?_
  have := ticket_lt_of_past p timeout hs e he
  omega

/-- Nothing has been told for a task that is not registered yet. -/
theorem toldBy_of_tickets_le {p : Project} {timeout t : Nat} {hs : List TaskHappening}
    (ht : ((ofProject p timeout).run hs).desk.tickets ≤ t) :
    ((ofProject p timeout).run hs).toldBy t = [] := by
  refine List.flatMap_eq_nil_iff.2 fun e he ↦ if_neg ?_
  have := ticket_lt_of_past p timeout hs e he
  omega

/-! ### What is added to the past -/

/-- A deed adds its text to those of its task. -/
theorem textsOf_concat {e : TaskDeed} (past : w'.past = w.past ++ [e]) (t : Nat) :
    w'.textsOf t = w.textsOf t ++ if e.ticket = t then e.text.toList else [] := by
  rw [textsOf, past, List.filterMap_append, ← textsOf]
  split_ifs with ht
  · cases htext : e.text <;> simp [ht, htext]
  · simp [ht]

/-- A deed adds what it tells to what was told for its task. -/
theorem toldBy_concat {e : TaskDeed} (past : w'.past = w.past ++ [e]) (t : Nat) :
    w'.toldBy t = w.toldBy t ++ if e.ticket = t then e.told else [] := by
  rw [toldBy, past, List.flatMap_append, ← toldBy]
  simp

/-- A deed of another task does not count. -/
theorem textsOf_of_ne {e : TaskDeed} {t : Nat} (past : w'.past = w.past ++ [e])
    (hne : e.ticket ≠ t) :
    w'.textsOf t = w.textsOf t := by
  rw [textsOf_concat past, if_neg hne, List.append_nil]

theorem toldBy_of_ne {e : TaskDeed} {t : Nat} (past : w'.past = w.past ++ [e])
    (hne : e.ticket ≠ t) :
    w'.toldBy t = w.toldBy t := by
  rw [toldBy_concat past, if_neg hne, List.append_nil]

theorem textsOf_congr (past : w'.past = w.past) : w'.textsOf = w.textsOf := by
  funext t
  rw [textsOf, past, textsOf]

theorem toldBy_congr (past : w'.past = w.past) : w'.toldBy = w.toldBy := by
  funext t
  rw [toldBy, past, toldBy]

end TaskCourse

end GraphSession
