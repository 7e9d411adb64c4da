import GraphSession.Proofs.Task.Silence

/-!
# What a cancellation brings about

**A client speaks once.** Over a channel nothing is sent but the signal to cancel, and that at most
once and only when the task was told to end while it had this channel open (`speaks_run`).

**A cancellation waits for the end** of the task that it has told to end: when it returns, the task
has released the slot and lost its guard, and nothing is ever done for it again (`gone_later`).

Together with the silence of a task that was told to end, or whose time is up, this is all that a
cancellation promises (`cancellation_is_kept`).
-/

namespace GraphSession

namespace Monitor

variable {d d' : Desk} {m m' : Monitor} {text : Option String}

/-- A monitor goes over from taking in texts to throwing them away, as its task was told to end. -/
structure Signals (m : Monitor) (d : Desk) (n : Nat) (m' : Monitor) : Prop where
  streaming : ∃ deadline messages rejected, m.stage = .streaming deadline n messages rejected
  told : d.isCancelled m.ticket = true
  draining : m'.isDraining = true

/-- A move sends nothing, or it is the one that tells the server. -/
theorem Move.unheard (move : Move m d text d' m') (n : Nat) :
    d'.connector.unheard n = d.connector.unheard n ∨
      m.Signals d n m' ∧ d'.connector.unheard n = d.connector.unheard n ++ [cancelSignal] := by
  cases move with
  | linger => exact .inl rfl
  | connect opening free time opened =>
    exact .inl (Connector.elim_of_openFor (g := Channel.toServer) rfl opened n)
  | take stage free time channel received =>
    exact .inl (Connector.unheard_of_received channel received n)
  | @signal deadline k rejected messages stage told =>
    rcases d.connector.unheard_signalled k n with h | ⟨rfl, h⟩
    · exact .inl h
    · exact .inr ⟨⟨⟨_, _, _, stage⟩, told, rfl⟩, h⟩
  | discard stage channel received => exact .inl (Connector.unheard_of_received channel received n)

/-- A monitor that takes in texts did so before, or it has opened a channel that was not there. -/
theorem Move.streaming (move : Move m d text d' m') {deadline n rejected : Nat}
    {messages : List TaskMessage} (h : m'.stage = .streaming deadline n messages rejected) :
    n = d.connector.taskIds.length ∨
      ∃ deadline messages rejected, m.stage = .streaming deadline n messages rejected := by
  cases move with
  | linger => cases h
  | connect opening free time opened =>
    obtain ⟨-, rfl, -⟩ := MonitorStage.streaming.inj h
    exact .inl (Connector.channel?_of_openFor opened).1
  | take stage =>
    obtain ⟨-, rfl, -⟩ := MonitorStage.streaming.inj h
    exact .inr ⟨_, _, _, stage⟩
  | signal => cases h
  | discard stage =>
    rw [stage] at h
    cases h

/-- A monitor whose task was told to end opens no channel. -/
theorem Move.channel?_eq (move : Move m d text d' m') (h : d.isCancelled m.ticket = true) :
    m'.channel? = m.channel? := by
  cases move with
  | linger opening free => simp [h] at free
  | connect opening free => simp [h] at free
  | take stage free => simp [h] at free
  | signal stage =>
    rw [channel?, channel?, stage]
  | discard => rfl

end Monitor

namespace TaskCourse

variable {w w' : TaskCourse} {hs : List TaskHappening} {h : TaskHappening} {i j n t : Nat}
  {m m' : Monitor}

/-! ### A client speaks once -/

/-- At some time in a course a task was told to end while it had that channel open. -/
def ToldOpen (w : TaskCourse) (hs : List TaskHappening) (n : Nat) : Prop :=
  ∃ before h after, hs = before ++ h :: after ∧
    ∃ i m, (w.run before).follower? i = some m ∧ m.channel? = some n ∧
      (w.run before).CallsOff h m.ticket

/-- What has been told to end remains told. -/
theorem ToldOpen.concat (hw : w.ToldOpen hs n) (h : TaskHappening) :
    w.ToldOpen (hs ++ [h]) n := by
  obtain ⟨before, h', after, rfl, hrest⟩ := hw
  exact ⟨before, h', after ++ [h], by rw [List.append_assoc, List.cons_append], hrest⟩

/-- What has been said over the channels, and what the monitors have to do with it. -/
structure Speaks (w₀ : TaskCourse) (hs : List TaskHappening) : Prop where
  sent : ∀ n, (w₀.run hs).sentOn n = [] ∨
    (w₀.run hs).sentOn n = [cancelSignal] ∧ w₀.ToldOpen hs n
  /-- As long as a monitor takes in texts, it has said nothing. -/
  streaming : ∀ i m, (w₀.run hs).follower? i = some m → ∀ deadline n messages rejected,
    m.stage = .streaming deadline n messages rejected → (w₀.run hs).sentOn n = []
  /-- Whoever has a channel and a mark was told to end when the channel was open. -/
  marked : ∀ i m n, (w₀.run hs).follower? i = some m → m.channel? = some n →
    (w₀.run hs).desk.isCancelled m.ticket = true → w₀.ToldOpen hs n

theorem sentOn_of_heard (heard : w'.heard = w.heard)
    (unheard : w'.desk.connector.unheard n = w.desk.connector.unheard n) :
    w'.sentOn n = w.sentOn n := by
  rw [sentOn, heard, unheard, sentOn]

/-- On a turn of a monitor nothing is sent, or the signal to cancel once. -/
theorem sentOn_of_move {text : Option String} (move : m.Move w.desk text w'.desk m')
    (heard : w'.heard = w.heard) (n : Nat) :
    w'.sentOn n = w.sentOn n ∨
      m.Signals w.desk n m' ∧ w'.sentOn n = w.sentOn n ++ [cancelSignal] := by
  rcases move.unheard n with hunheard | ⟨signals, hunheard⟩
  · exact .inl (sentOn_of_heard heard hunheard)
  · refine .inr ⟨signals, ?_⟩
    rw [sentOn, heard, hunheard, ← List.append_assoc, ← sentOn]

namespace Speaks

variable {w₀ : TaskCourse}

theorem start (p : Project) (timeout : Nat) : Speaks (ofProject p timeout) [] := by
  have nobody : ∀ i m, (ofProject p timeout).follower? i ≠ some m := fun i m hi ↦ by
    simp [ofProject, follower?, call?, callAt?] at hi
  exact ⟨fun _ ↦ .inl rfl, fun i m hi ↦ absurd hi (nobody i m), fun i m _ hi ↦
    absurd hi (nobody i m)⟩

/-- Each step leaves what was sent over a channel empty or one signal, for a task that was told to
end. -/
theorem sent_step (hw : w₀.Speaks hs) (hstep : (w₀.run hs).Step h w') (n : Nat) :
    w'.sentOn n = [] ∨ w'.sentOn n = [cancelSignal] ∧ w₀.ToldOpen (hs ++ [h]) n := by
  have same : w'.sentOn n = (w₀.run hs).sentOn n →
      w'.sentOn n = [] ∨ w'.sentOn n = [cancelSignal] ∧ w₀.ToldOpen (hs ++ [h]) n := fun hsent ↦ by
    rw [hsent]
    exact (hw.sent n).imp id (And.imp id fun htold ↦ htold.concat h)
  cases hstep with
  | enroll taskId free desk followers past arrived heard =>
    refine same (sentOn_of_heard heard ?_)
    rw [desk]
    rfl
  | move before move followers past arrived heard =>
    rcases sentOn_of_move move heard n with hsent | ⟨⟨⟨_, _, _, stage⟩, told, -⟩, hsent⟩
    · exact same hsent
    · rw [hw.streaming _ _ before _ _ _ _ stage] at hsent
      refine .inr ⟨hsent, (hw.marked _ _ n before ?_ told).concat _⟩
      rw [Monitor.channel?, stage]
  | leave caller before leaves followers past arrived heard =>
    exact same (sentOn_of_heard heard (congrFun leaves.unheard n))
  | aside aside => exact same (aside.sent n)

/-- A monitor that still takes in texts has sent nothing. -/
theorem streaming_step (hw : w₀.Speaks hs) (seating : (w₀.run hs).Seating)
    (unused : (w₀.run hs).Unused) (hstep : (w₀.run hs).Step h w') (hj : w'.follower? j = some m')
    {deadline rejected : Nat} {messages : List TaskMessage}
    (hstage : m'.stage = .streaming deadline n messages rejected) :
    w'.sentOn n = [] := by
  cases hstep.stems seating hj with
  | enrolled taskId registered =>
    rw [registered] at hstage
    cases hstage
  | moved before move past arrived heard =>
    rcases sentOn_of_move move heard n with hsent | ⟨⟨-, -, hdraining⟩, -⟩
    · rw [hsent]
      rcases move.streaming hstage with rfl | ⟨_, _, _, stage⟩
      · exact (unused _ (Nat.le_refl _)).2
      · exact hw.streaming _ _ before _ _ _ _ stage
    · rw [Monitor.isDraining, hstage] at hdraining
      cases hdraining
  | passed before aside =>
    rw [aside.sent n]
    exact hw.streaming _ _ before _ _ _ _ hstage

/-- A mark on a task with an open channel was set when it was told to end. -/
theorem marked_step (hw : w₀.Speaks hs) (seating : (w₀.run hs).Seating)
    (hstep : (w₀.run hs).Step h w') (hj : w'.follower? j = some m') (hn : m'.channel? = some n)
    (hmark : w'.desk.isCancelled m'.ticket = true) : w₀.ToldOpen (hs ++ [h]) n := by
  cases hstep.stems seating hj with
  | enrolled taskId registered =>
    rw [registered] at hn
    cases hn
  | @moved m text before move past =>
    have hmark' : (w₀.run hs).desk.isCancelled m.ticket = true := by
      rw [← move.follows.isCancelled, ← move.follows.ticket]
      exact hmark
    rw [move.channel?_eq hmark'] at hn
    exact (hw.marked _ _ n before hn hmark').concat _
  | passed before aside =>
    rcases aside.marks _ hmark with hmark | hcalls
    · exact (hw.marked _ _ n before hn hmark).concat h
    · exact ⟨hs, h, [], rfl, j, m', before, hn, hcalls⟩

end Speaks

/-- **In every course** a client says nothing but that its task was cancelled, and that once. -/
theorem speaks_run (p : Project) (timeout : Nat) (hs : List TaskHappening) :
    Speaks (ofProject p timeout) hs := by
  induction hs using List.reverseRecOn with
  | nil => exact .start p timeout
  | append_singleton hs h ih =>
    have seating := seating_run p timeout hs
    have hstep := step_cases ((ofProject p timeout).run hs) h
    rw [← run_concat] at hstep
    exact ⟨ih.sent_step hstep,
      fun i m hi _ _ _ _ ↦ ih.streaming_step seating (silent_of_length_le p timeout hs) hstep hi,
      fun i m n ↦ ih.marked_step seating hstep⟩

/-! ### A cancellation waits for the end -/

/-- A task was registered, and has ended: its guard is gone. -/
structure Gone (w : TaskCourse) (t : Nat) : Prop where
  registered : t < w.desk.tickets
  unfinished : t ∉ w.desk.slot.unfinished

namespace Gone

/-- Nobody follows it. -/
theorem ne_ticket (hw : w.Gone t) (seating : w.Seating) (hi : w.follower? i = some m) :
    m.ticket ≠ t := by
  rintro rfl
  refine hw.unfinished ?_
  rw [(seating.of_follower? hi).unfinished]
  exact List.mem_singleton_self _

/-- And nothing is done for it any more. -/
theorem step (hw : w.Gone t) (seating : w.Seating) (hstep : w.Step h w') :
    w'.Gone t ∧ w'.textsOf t = w.textsOf t ∧ w'.toldBy t = w.toldBy t := by
  have lt := Nat.lt_of_lt_of_le hw.registered hstep.tickets_le
  cases hstep with
  | enroll taskId free desk followers past =>
    refine ⟨⟨lt, ?_⟩, by rw [textsOf_congr past], by rw [toldBy_congr past]⟩
    rw [desk, Desk.slot_occupied, List.mem_append, List.mem_singleton, not_or]
    exact ⟨hw.unfinished, Nat.ne_of_lt hw.registered⟩
  | move before move followers past =>
    have hne := hw.ne_ticket seating before
    refine ⟨⟨lt, ?_⟩, textsOf_of_ne past hne, toldBy_of_ne past hne⟩
    rw [move.follows.slot]
    exact hw.unfinished
  | leave caller before leaves followers past =>
    have hne := hw.ne_ticket seating before
    have seated := seating.of_follower? before
    refine ⟨⟨lt, ?_⟩, textsOf_of_ne past hne, toldBy_of_ne past hne⟩
    rw [leaves.slot seated.active seated.unfinished]
    exact List.not_mem_nil
  | aside aside =>
    refine ⟨⟨lt, ?_⟩, by rw [textsOf_congr aside.past], by rw [toldBy_congr aside.past]⟩
    rw [aside.unfinished]
    exact hw.unfinished

/-- **A task that has ended never comes back.** -/
theorem later {p : Project} {timeout : Nat} {before : List TaskHappening}
    (hw : ((ofProject p timeout).run before).Gone t) (hs : List TaskHappening) :
    ((ofProject p timeout).run (before ++ hs)).Gone t ∧
      ((ofProject p timeout).run (before ++ hs)).textsOf t =
        ((ofProject p timeout).run before).textsOf t ∧
      ((ofProject p timeout).run (before ++ hs)).toldBy t =
        ((ofProject p timeout).run before).toldBy t := by
  induction hs using List.reverseRecOn with
  | nil =>
    rw [List.append_nil]
    exact ⟨hw, rfl, rfl⟩
  | append_singleton hs h ih =>
    obtain ⟨gone, texts, told⟩ := ih
    rw [← List.append_assoc, run_concat, ← texts, ← told]
    exact gone.step (seating_run p timeout _) (step_cases _ h)

end Gone

/-- A call waits for that task, or it has returned or was given up. -/
structure Awaits (w : TaskCourse) (j t : Nat) : Prop where
  made : j < w.calls.length
  call : ∀ c, w.call? j = some c → c = .awaitEnd t

/-- A call goes on waiting for the same task until it returns or is given up. -/
theorem Awaits.step (hw : w.Awaits j t) (h : TaskHappening) : (w.step h).Awaits j t := by
  have made := hw.made
  refine ⟨Nat.lt_of_lt_of_le made (w.length_calls_le h), fun c hc ↦ ?_⟩
  cases arises_of_step hc with
  | was before => exact hw.call c before
  | follow taskId last => exact absurd last (Nat.ne_of_lt made)
  | cancel last => exact absurd last (Nat.ne_of_lt made)
  | turn before moves =>
    -- there is nowhere to go on to
    rw [hw.call _ before] at moves
    rcases TaskCall.moves_cases moves with ⟨m, m', hc, -⟩ | ⟨ticket, hc, -⟩ <;> cases hc

/-- A cancellation that has told a task to end waits for that task until it returns. -/
theorem awaits_later (hcalls : (w.run hs).CallsOff (.turn j) t) (later : List TaskHappening) :
    (w.run (hs ++ .turn j :: later)).Awaits j t := by
  induction later using List.reverseRecOn with
  | nil =>
    obtain ⟨-, hcall, -⟩ := step_of_callsOff hcalls
    rw [run_concat]
    exact ⟨lt_length_of_callAt? hcall, fun c hc ↦ Option.some.inj (hc.symm.trans hcall)⟩
  | append_singleton later h ih =>
    rw [← List.cons_append, ← List.append_assoc, run_concat]
    exact ih.step h

/-- When it returns, the task has ended. -/
theorem isClosed_of_returns (hw : w.Awaits j t) {r : TaskResult} (hr : w.Returns j r) :
    t ∉ w.desk.slot.unfinished := by
  obtain ⟨c, d, hc, hends⟩ := hr
  rw [hw.call c hc, TaskCall.turn] at hends
  split_ifs at hends with hclosed
  exact Desk.isClosed_iff.1 hclosed

/-! ### What is promised -/

/-- What a cancellation, or the end of its time, means for a task. -/
structure Obeys (w₀ : TaskCourse) : Prop where
  /-- Once a task was told to end, its monitor does not touch the project, and tells of errors
  only. -/
  called_off : ∀ hs h t, (w₀.run hs).CallsOff h t → ∀ later,
    (w₀.run (hs ++ h :: later)).Silent t
  /-- The same holds before and on the first turn of the monitor, -/
  unpolled : ∀ hs i m, (w₀.run hs).follower? i = some m → m.stage = .registered →
    (w₀.run hs).Silent m.ticket
  /-- and once the time, which counts from that turn, is up, from then on. -/
  overdue : ∀ hs i m, (w₀.run hs).follower? i = some m → m.stage = .registered → ∀ later,
    (w₀.run hs).desk.now + w₀.desk.timeout ≤ (w₀.run (hs ++ .turn i :: later)).desk.now →
      ∀ rest, (w₀.run (hs ++ .turn i :: later ++ rest)).Silent m.ticket
  /-- Over a channel nothing goes to the server but one signal to cancel, and only after its task
  was told to end while the channel was open. -/
  sent : ∀ hs n, (w₀.run hs).sentOn n = [] ∨
    (w₀.run hs).sentOn n = [cancelSignal] ∧ w₀.ToldOpen hs n
  /-- A cancellation that has told a task to end returns when that task has ended. From then on
  nobody follows the task, takes anything in for it, or tells of it. -/
  returned : ∀ hs j t, (w₀.run hs).CallsOff (.turn j) t → ∀ later r,
    (w₀.run (hs ++ .turn j :: later)).Returns j r →
      t ∉ (w₀.run (hs ++ .turn j :: later)).desk.slot.unfinished ∧
        ∀ rest,
          (∀ i m, (w₀.run (hs ++ .turn j :: later ++ rest)).follower? i = some m → m.ticket ≠ t) ∧
          (w₀.run (hs ++ .turn j :: later ++ rest)).textsOf t =
            (w₀.run (hs ++ .turn j :: later)).textsOf t ∧
          (w₀.run (hs ++ .turn j :: later ++ rest)).toldBy t =
            (w₀.run (hs ++ .turn j :: later)).toldBy t

/-- The timeout of a desk is fixed. -/
theorem timeout_run (w : TaskCourse) (hs : List TaskHappening) :
    (w.run hs).desk.timeout = w.desk.timeout := by
  refine run_induction (P := fun w' ↦ w'.desk.timeout = w.desk.timeout) rfl
    (fun {hs h w'} ih hstep ↦ ?_) hs
  rw [← ih]
  cases hstep with
  | enroll taskId free desk =>
    rw [desk]
    rfl
  | move before move => exact move.timeout
  | leave caller before leaves => exact leaves.timeout
  | aside aside => exact aside.timeout

/-- **A task that was told to end, or whose time is up, is silent,** and a cancellation returns when
it is over. -/
theorem cancellation_is_kept (p : Project) (timeout : Nat) : (ofProject p timeout).Obeys where
  called_off hs h t hcalls later :=
    have told := (told_of_callsOff (seating_run p timeout hs) hcalls).later lasting_isTold later
    silent_of_intake? fun i m hi ht ↦ Monitor.intake?_of_isTold (told.monitor i m hi ht)
  unpolled hs i m hi hstage := by
    refine silent_of_intake? fun j m' hj _ ↦ ?_
    obtain ⟨-, rfl⟩ := ((seating_run p timeout hs).of_follower? hi).eq hj
    exact (Monitor.IsOpening.first hstage).intake?
  overdue hs i m hi hstage later htime rest := by
    have due := due_of_registered (seating_run p timeout hs) hi hstage
    have due := due.later (lasting_due _) (later ++ rest)
    rw [← List.cons_append, ← List.append_assoc, timeout_run] at due
    -- the time that was up before is up now
    have htime := Nat.le_trans htime (now_le_run _ rest)
    rw [← run_append] at htime
    exact silent_of_intake? fun j m' hj ht ↦ (due.monitor j m' hj ht).intake? htime
  sent hs := (speaks_run p timeout hs).sent
  returned hs j t hcalls later r hr := by
    have ended := isClosed_of_returns (awaits_later hcalls later) hr
    have told := (told_of_callsOff (seating_run p timeout hs) hcalls).later lasting_isTold later
    refine ⟨ended, fun rest ↦ ?_⟩
    obtain ⟨gone, htexts, htold⟩ := Gone.later ⟨told.registered, ended⟩ rest
    exact ⟨fun i m ↦ gone.ne_ticket (seating_run p timeout _), htexts, htold⟩

/-- A text arrives and a task is cancelled before it has taken it in. It tells the server, and
throws the text away and another one that comes after. -/
def cancelledTask : List TaskHappening :=
  [.monitor "t", .turn 0, .serve (.push 0 (.text "one")), .cancel, .turn 1, .turn 0, .turn 0,
    .serve (.push 0 (.text "two")), .turn 0, .serve (.close 0)]

example : ((ofProject (.carrying .empty) 1000).run cancelledTask).sentOn 0 = [cancelSignal] ∧
    ((ofProject (.carrying .empty) 1000).run cancelledTask).textsOf 0 = [] ∧
    ((ofProject (.carrying .empty) 1000).run (cancelledTask ++ [.turn 0])).desk.active = none := by
  decide +kernel

end TaskCourse

end GraphSession
