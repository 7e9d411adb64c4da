import GraphSession.Proofs.Task.Ledger

/-!
# What a task makes of the project

As long as nobody else writes to it, the project is that from before the task with the messages the
monitor has taken in applied to it one after the other (`stream_of_task`): while the task goes on,
and when it has ended, however it did. A text that is no frame is passed over. The report of a task
that completed or ran out of time has these messages, and counts the entries of their patches that
were not accepted.
-/

namespace GraphSession

/-- A monitor that takes in texts counts what was rejected of them. -/
def Monitor.Counts (m : Monitor) (p : Project) (texts : List String) : Prop :=
  ∀ deadline n messages rejected, m.stage = .streaming deadline n messages rejected →
    rejected = Project.sumOver Project.rejected p texts

/-- A move of a monitor counts what it rejects. -/
theorem Monitor.Counts.move {m m' : Monitor} {d d' : Desk} {p : Project} {texts : List String}
    {arrivedOn : Nat → List ServerFrame} {text : Option String} (h : m.Counts p texts)
    (reads : m.Reads d texts arrivedOn) (project : d.project = texts.foldl Project.takeText p)
    (move : Move m d text d' m') : m'.Counts p (texts ++ text.toList) := by
  intro deadline n messages rejected hstage
  cases move with
  | linger => cases hstage
  | connect opening =>
    obtain ⟨-, -, -, rfl⟩ := MonitorStage.streaming.inj hstage
    rw [reads.unopened opening.channel?_eq]
    rfl
  | take stage =>
    obtain ⟨-, -, -, rfl⟩ := MonitorStage.streaming.inj hstage
    rw [Option.toList_some, Project.sumOver_concat, ← project, h _ _ _ _ stage]
  | signal => cases hstage
  | discard stage =>
    rw [stage] at hstage
    cases hstage

/-- The channel of a monitor, once it is open, has that number, which until then is the next. -/
structure Monitor.OpensAt (m : Monitor) (d : Desk) (n : Nat) : Prop where
  next : m.channel? = none → d.connector.taskIds.length = n
  own : ∀ k, m.channel? = some k → k = n

/-- A channel that is open remains the channel of the monitor. -/
theorem Monitor.OpensAt.move {m m' : Monitor} {d d' : Desk} {n : Nat} {text : Option String}
    (h : m.OpensAt d n) (move : Move m d text d' m') : m'.OpensAt d' n := by
  cases move with
  | linger opening =>
    refine ⟨fun _ ↦ h.next opening.channel?_eq, fun k hk ↦ ?_⟩
    cases hk
  | connect opening free time opened =>
    refine ⟨fun hnone ↦ (by cases hnone), fun k hk ↦ ?_⟩
    obtain rfl := Option.some.inj hk
    rw [(Connector.channel?_of_openFor opened).1, h.next opening.channel?_eq]
  | take stage | signal stage =>
    refine ⟨fun hnone ↦ (by cases hnone), fun k hk ↦ h.own k ?_⟩
    rw [channel?, stage]
    exact hk
  | discard stage =>
    exact ⟨fun hnone ↦ by simp [channel?, stage] at hnone, h.own⟩

namespace TaskCourse

variable {w w₀ w' : TaskCourse} {h : TaskHappening} {i : Nat} {m : Monitor}

/-- The number of the channel that is opened next. -/
def nextChannel (w : TaskCourse) : Nat := w.desk.connector.taskIds.length

/-- What is known of a course since a state without a task, up to the second task since. -/
structure Since (w₀ w : TaskCourse) : Prop where
  tickets : w₀.desk.tickets ≤ w.desk.tickets
  /-- Before the first task since, all is as it was. -/
  idle : w.desk.tickets = w₀.desk.tickets →
    w.desk.active = none ∧ w.desk.project = w₀.desk.project ∧ w.nextChannel = w₀.nextChannel
  project : w.desk.tickets = w₀.desk.tickets + 1 →
    w.desk.project = (w.textsOf w₀.desk.tickets).foldl Project.takeText w₀.desk.project
  arrived : w.desk.tickets = w₀.desk.tickets + 1 →
    (w.textsOf w₀.desk.tickets).map ServerFrame.text <+: w.arrivedOn w₀.nextChannel
  monitor : w.desk.tickets = w₀.desk.tickets + 1 → ∀ i m, w.follower? i = some m →
    m.Counts w₀.desk.project (w.textsOf w₀.desk.tickets) ∧ m.OpensAt w.desk w₀.nextChannel

/-- The texts of a task that is followed are the first on the channel that it opens. -/
theorem Ledger.front {n : Nat} (hm : w.Ledger m) (hn : m.OpensAt w.desk n) :
    (w.textsOf m.ticket).map ServerFrame.text <+: w.arrivedOn n := by
  cases hchannel : m.channel? with
  | none =>
    rw [hm.reads.unopened hchannel]
    exact List.nil_prefix
  | some k => exact hn.own k hchannel ▸ hm.reads.front k hchannel

namespace Since

/-- A task that is followed was registered since. -/
theorem lt_tickets (hw : Since w₀ w) (seated : w.Seated i m) :
    w₀.desk.tickets < w.desk.tickets := by
  refine Nat.lt_of_le_of_ne hw.tickets fun hnone ↦ ?_
  have hactive := (hw.idle hnone.symm).1
  rw [seated.active] at hactive
  cases hactive

/-- One step leaves the monitor of the only task since counting, on the channel that was opened
next. -/
theorem monitor_step (hw : Since w₀ w) (seating : w.Seating)
    (ledger : ∀ i m, w.follower? i = some m →
    w.Ledger m) (hstep : w.Step h w') (hone : w'.desk.tickets = w₀.desk.tickets + 1) {j : Nat}
    {m' : Monitor} (hj : w'.follower? j = some m') :
    m'.Counts w₀.desk.project (w'.textsOf w₀.desk.tickets) ∧ m'.OpensAt w'.desk w₀.nextChannel := by
  cases hstep.stems seating hj with
  | enrolled taskId registered free desk past =>
    have tickets : w'.desk.tickets = w.desk.tickets + 1 := congrArg Desk.tickets desk
    rw [registered]
    refine ⟨nofun, fun _ ↦ ?_, nofun⟩
    rw [desk]
    exact (hw.idle (by omega)).2.2
  | moved before move past =>
    have hone : w.desk.tickets = w₀.desk.tickets + 1 := move.follows.tickets ▸ hone
    have hticket := (seating.of_follower? before).ticket_eq hone
    obtain ⟨counts, opens⟩ := hw.monitor hone _ _ before
    rw [textsOf_concat past, if_pos hticket]
    exact ⟨counts.move (hticket ▸ (ledger _ _ before).reads) (hw.project hone) move,
      opens.move move⟩
  | passed before aside =>
    obtain ⟨counts, opens⟩ := hw.monitor (aside.tickets ▸ hone) _ _ before
    rw [textsOf_congr aside.past]
    exact ⟨counts, aside.taskIds ▸ opens.next, opens.own⟩

/-- One step leaves the project the fold of the texts, up to the second task since. -/
theorem step (hw : Since w₀ w) (quiet : h.isWrite = false) (seating : w.Seating)
    (ledger : ∀ i m, w.follower? i = some m → w.Ledger m)
    (ledger' : ∀ i m, w'.follower? i = some m → w'.Ledger m)
    (texts : w.textsOf w.desk.tickets = []) (hstep : w.Step h w') : Since w₀ w' := by
  have monitor : w'.desk.tickets = w₀.desk.tickets + 1 → ∀ i m, w'.follower? i = some m →
      m.Counts w₀.desk.project (w'.textsOf w₀.desk.tickets) ∧ m.OpensAt w'.desk w₀.nextChannel :=
    fun hone _ _ hj ↦ hw.monitor_step seating ledger hstep hone hj
  have le := hw.tickets
  cases hstep with
  | enroll taskId free desk followers past =>
    have tickets : w'.desk.tickets = w.desk.tickets + 1 := congrArg Desk.tickets desk
    have htexts : w'.desk.tickets = w₀.desk.tickets + 1 → w'.textsOf w₀.desk.tickets = [] :=
      fun hone ↦ by
        -- it is the first task since, and nothing was taken in for a ticket before it is given
        rw [show w₀.desk.tickets = w.desk.tickets by omega, textsOf_congr past]
        exact texts
    refine ⟨by omega, fun _ ↦ by omega, fun hone ↦ ?_, fun hone ↦ ?_, monitor⟩
    · rw [htexts hone, desk]
      exact (hw.idle (by omega)).2.1
    · rw [htexts hone]
      exact List.nil_prefix
  | @move _ i m m' text before move followers past =>
    have seated := seating.of_follower? before
    have tickets := move.follows.tickets
    have lt := hw.lt_tickets seated
    have before' : w'.follower? i = some m' := by rw [followers, Function.update_self]
    refine ⟨by omega, fun _ ↦ by omega, fun hone ↦ ?_, fun hone ↦ ?_, monitor⟩
    · -- what is taken in goes on top of the fold
      rw [move.follows.project, textsOf_concat past, if_pos (seated.ticket_eq (tickets ▸ hone)),
        List.foldl_append, hw.project (tickets ▸ hone)]
      cases text <;> rfl
    · have hticket : m.ticket = w₀.desk.tickets := seated.ticket_eq (tickets ▸ hone)
      -- the texts of the monitor are the front of what arrived on its channel
      rw [← hticket, ← move.follows.ticket]
      exact (ledger' i m' before').front (monitor hone i m' before').2
  | @leave _ _ i m st caller before leaves followers past arrived =>
    have seated := seating.of_follower? before
    have tickets := leaves.tickets
    have lt := hw.lt_tickets seated
    have htexts : w'.textsOf w₀.desk.tickets = w.textsOf w₀.desk.tickets := by
      -- a task that leaves takes nothing in
      rw [textsOf_concat past]
      split_ifs <;> exact List.append_nil _
    refine ⟨by omega, fun _ ↦ by omega, fun hone ↦ ?_, fun hone ↦ ?_, monitor⟩
    · rw [leaves.project, htexts]
      exact hw.project (tickets ▸ hone)
    · rw [htexts, arrivedOn, arrived]
      exact hw.arrived (tickets ▸ hone)
  | aside aside =>
    have tickets := aside.tickets
    have htexts := congrFun (textsOf_congr aside.past) w₀.desk.tickets
    refine ⟨by omega, fun hnone ↦ ?_, fun hone ↦ ?_, fun hone ↦ ?_, monitor⟩
    · rw [aside.active, aside.project quiet, nextChannel, aside.taskIds]
      exact hw.idle (tickets ▸ hnone)
    · rw [aside.project quiet, htexts]
      exact hw.project (tickets ▸ hone)
    · obtain ⟨new, harrived, -⟩ := aside.arrived w₀.nextChannel
      rw [htexts, harrived]
      exact (hw.arrived (tickets ▸ hone)).trans (List.prefix_append _ _)

end Since

/-- After every run the project is the fold of the texts, up to the second task since. -/
theorem since_run (p : Project) (timeout : Nat) (before hs : List TaskHappening)
    (free : ((ofProject p timeout).run before).desk.active = none)
    (quiet : ∀ h ∈ hs, h.isWrite = false) :
    Since ((ofProject p timeout).run before) ((ofProject p timeout).run (before ++ hs)) := by
  induction hs using List.reverseRecOn with
  | nil =>
    rw [List.append_nil]
    exact ⟨Nat.le_refl _, fun _ ↦ ⟨free, rfl, rfl⟩, fun _ ↦ by omega, fun _ ↦ by omega,
      fun _ ↦ by omega⟩
  | append_singleton hs h ih =>
    have ih := ih fun h' hh' ↦ quiet h' (List.mem_append_left _ hh')
    have quiet := quiet h (List.mem_append_right _ (List.mem_singleton_self h))
    have ledger' := ledger_run p timeout (before ++ hs ++ [h])
    rw [run_concat] at ledger'
    rw [← List.append_assoc, run_concat]
    exact ih.step quiet (seating_run p timeout _) (ledger_run p timeout _) ledger'
      (textsOf_of_tickets_le (Nat.le_refl _)) (step_cases _ h)

/-! ### Reports -/

/-- A call that returns what a task has come to has followed it. -/
theorem exit_of_returns {o : Monitor.Outcome} (h : w.Returns i (.followed o)) :
    (∃ m d, w.follower? i = some m ∧ m.turn w.desk = .ends d o) ∨
      ∃ e, w.call? i = some (.refused e) ∧ o = .error e := by
  obtain ⟨c, d, hc, hends⟩ := h
  cases c with
  | follow m =>
    rw [TaskCall.turn] at hends
    cases ht : m.turn w.desk <;> rw [ht] at hends <;> cases hends
    exact .inl ⟨m, _, follower?_of_call? hc, ht⟩
  | refused e =>
    cases hends
    exact .inr ⟨e, hc, rfl⟩
  | cancel =>
    rw [TaskCall.turn] at hends
    split at hends <;> cases hends
  | awaitEnd ticket =>
    rw [TaskCall.turn] at hends
    split_ifs at hends
    cases hends

/-- What a report says of the texts that were taken in. -/
structure Reports (r : TaskReport) (p : Project) (texts : List String)
    (arrived : List ServerFrame) :
    Prop where
  state : r.state = .completed ∨ r.state = .timedOut
  /-- The messages of the frames among the texts, in order. -/
  messages : r.messages = Frame.messages texts
  /-- Every entry of every patch array was accepted or is counted. -/
  rejected : r.rejected + Project.sumOver Project.accepted p texts = (texts.map Frame.entries).sum
  /-- The task has completed when all that has arrived was taken in. -/
  completed : r.state = .completed → texts.map .text = arrived

/-- A monitor that returns a report reports what it has taken in. -/
theorem reports_of_exit {p : Project} {n : Nat} {r : TaskReport} {d : Desk}
    (ledger : w.Ledger m) (counts : m.Counts p (w.textsOf m.ticket)) (opens : m.OpensAt w.desk n)
    (h : m.Exit w.desk d (.ok r)) : Reports r p (w.textsOf m.ticket) (w.arrivedOn n) := by
  have total := Project.sumOver_accepted_add_rejected p (w.textsOf m.ticket)
  cases h with
  | tooLate opening =>
    have texts := ledger.reads.unopened opening.channel?_eq
    exact ⟨.inr rfl, by rw [texts]; rfl, by rw [texts]; rfl, nofun⟩
  | timeUp stage =>
    obtain ⟨rfl, -⟩ := ledger.reads.streaming _ _ _ _ stage
    obtain rfl := counts _ _ _ _ stage
    exact ⟨.inr rfl, rfl, by rw [Nat.add_comm]; exact total, nofun⟩
  | closed stage free time channel received =>
    obtain ⟨rfl, line⟩ := ledger.reads.streaming _ _ _ _ stage
    obtain rfl := counts _ _ _ _ stage
    refine ⟨.inl rfl, rfl, by rw [Nat.add_comm]; exact total, fun _ ↦ ?_⟩
    obtain rfl := opens.own _ (by rw [Monitor.channel?, stage])
    rw [line, Connector.waiting_eq channel, Channel.toClient_of_closed received, List.append_nil]

/-- A text that is no frame is passed over. -/
theorem passes_over {text : String} (hi : w.follower? i = some m)
    (hintake : m.intake? w.desk = some text) (hnone : Frame.ofText? text = none) :
    (w.step (.turn i)).follower? i = some m ∧
      (w.step (.turn i)).desk =
        { w.desk with connector := (w.step (.turn i)).desk.connector } := by
  obtain ⟨deadline, n, messages, rejected, c, c', stage, free, time, channel, received⟩ :=
    Monitor.received_of_intake? hintake
  have ht : m.turn w.desk = .moves (w.desk.onChannel n fun _ ↦ c') m := by
    unfold Monitor.turn Monitor.turnStreaming
    simp only [stage, channel, received]
    rw [if_neg (by simp [free]), if_neg (by omega), Monitor.takeFrame, hnone]
    simp only [← stage]
  rw [step_of_moves hi ht]
  refine ⟨?_, rfl⟩
  rw [follower?_of_update (call?_proceed (call?_of_follower? hi) _ _ _), Function.update_self]
  rfl

/-- What the only task since a state has made of the project, and what it reports. -/
structure Streamed (w₀ w : TaskCourse) (t : Nat) : Prop where
  /-- The project is the one from before, with the messages applied to it in order. -/
  project : w.desk.project =
    (Frame.messages (w.textsOf t)).foldl (fun q m ↦ (PatchOp.applyAll q m.patch).1) w₀.desk.project
  /-- The texts are the first that have arrived on the channel that the task has opened. -/
  arrived : (w.textsOf t).map ServerFrame.text <+: w.arrivedOn w₀.nextChannel
  /-- What it reports. -/
  report : ∀ i r, w.Returns i (.followed (.ok r)) →
    Reports r w₀.desk.project (w.textsOf t) (w.arrivedOn w₀.nextChannel)
  /-- The end of the task, in whichever way, leaves the project. -/
  ending : ∀ i m, w.follower? i = some m → ∀ h, h.caller? = some i → (w.step h).follower? i = none →
    (w.step h).desk.project = w.desk.project
  /-- A text that is no frame changes nothing but the channel, and the monitor goes on. -/
  passed : ∀ i m text, w.follower? i = some m → m.intake? w.desk = some text →
    Frame.ofText? text = none →
      (w.step (.turn i)).follower? i = some m ∧
        (w.step (.turn i)).desk = { w.desk with connector := (w.step (.turn i)).desk.connector }

/-- **A task makes of the project what its messages say**: when a task is the only one that was
registered since a state without a task, and nobody else has written to the project since. -/
theorem stream_of_task (p : Project) (timeout : Nat) (before hs : List TaskHappening)
    (free : ((ofProject p timeout).run before).desk.active = none)
    (quiet : ∀ h ∈ hs, h.isWrite = false)
    (alone : ((ofProject p timeout).run (before ++ hs)).desk.tickets =
      ((ofProject p timeout).run before).desk.tickets + 1) :
    Streamed ((ofProject p timeout).run before) ((ofProject p timeout).run (before ++ hs))
      ((ofProject p timeout).run before).desk.tickets := by
  have since := since_run p timeout before hs free quiet
  have seating := seating_run p timeout (before ++ hs)
  have ledger := ledger_run p timeout (before ++ hs)
  generalize (ofProject p timeout).run (before ++ hs) = w at *
  generalize (ofProject p timeout).run before = w₀ at *
  refine ⟨?_, since.arrived alone, fun i r hr ↦ ?_, fun i m hi h hcaller hgone ↦ ?_,
    fun i m text ↦ passes_over⟩
  · -- the project is the fold of the texts, so the workflow is the fold of the workflows
    rw [since.project alone, Project.foldl_takeText]
  · obtain ⟨m, d, hi, hends⟩ | ⟨e, -, he⟩ := exit_of_returns hr
    · -- the call that returns a report is that of the only task
      have hticket := (seating.of_follower? hi).ticket_eq alone
      obtain ⟨counts, opens⟩ := since.monitor alone i m hi
      rw [← hticket] at counts ⊢
      exact reports_of_exit (ledger i m hi) counts opens (Monitor.exit_of_turn hends)
    · cases he
  · -- the call leaves without a report, and the project as it is
    cases step_cases w h with
    | enroll => cases hcaller
    | move before move followers =>
      obtain rfl := Option.some.inj hcaller
      rw [followers, Function.update_self] at hgone
      cases hgone
    | leave caller before leaves => exact leaves.project
    | aside aside =>
      rw [aside.followers, hi] at hgone
      cases hgone

/-- Three texts: a frame with a patch, a patch that does not apply and an entry that is none; no
frame; and a frame that only tells of a node. -/
def mixedTexts : List String :=
  ["\x7b\"patch\":[\x7b\"key\":[\"workflow\",\"error\"],\"value\":\"cycle\"\x7d," ++
      "\x7b\"key\":[\"workflow\",\"edges\"],\"value\":[]\x7d,7]\x7d",
    "no frame", "\x7b\"timer\":\"start\",\"node_id\":\"a\"\x7d"]

/-- They arrive, are taken in, and the server closes the channel. -/
def mixedTask : List TaskHappening :=
  [.monitor "t", .turn 0] ++ mixedTexts.map (fun s ↦ .serve (.push 0 (.text s))) ++
    [.turn 0, .turn 0, .turn 0, .serve (.close 0)]

/-- A task takes in three texts, and its patch is in the project. -/
theorem stream_of_mixedTask :
    ((ofProject (.carrying .empty) 1000).run mixedTask).desk.project.workflow.error = some "cycle" ∧
      Streamed (ofProject (.carrying .empty) 1000)
        ((ofProject (.carrying .empty) 1000).run mixedTask)
        0 := by
  have quiet : ∀ h ∈ mixedTask, h.isWrite = false := by
    simp [mixedTask, mixedTexts, TaskHappening.isWrite]
  have alone : ((ofProject (.carrying .empty) 1000).run mixedTask).desk.tickets = 0 + 1 := by
    decide +kernel
  exact ⟨by decide +kernel, stream_of_task (.carrying .empty) 1000 [] mixedTask rfl quiet alone⟩

end TaskCourse

end GraphSession
