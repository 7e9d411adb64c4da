import GraphSession.Proofs.Task.Occupancy

/-!
# What monitors have taken in and told

The past of a course is enough to say where a monitor stands (`Ledger`): its messages are those of
the texts it has taken in, and these texts are the front of what has arrived on its channel; what it
has told the listeners are the events of these texts, and the nodes it holds for running are those
that the events have left running.

**A channel that is not there has no past** (`silent_of_length_le`): so a monitor that opens a
channel begins with what arrives from then on.
-/

namespace GraphSession

namespace TaskCourse

variable {w w' : TaskCourse} {h : TaskHappening} {i : Nat} {m : Monitor}

/-! ### Channels to come -/

/-- Nothing has gone over the channels that are not there. -/
def Unused (w : TaskCourse) : Prop :=
  ∀ n, w.desk.connector.taskIds.length ≤ n → w.arrivedOn n = [] ∧ w.sentOn n = []

/-- Nothing goes over a channel that is still not there. -/
theorem Unused.of_records (hw : w.Unused) (arrived : w'.arrived = w.arrived)
    (heard : w'.heard = w.heard)
    (taskIds : w.desk.connector.taskIds.length ≤ w'.desk.connector.taskIds.length) : w'.Unused := by
  intro n hn
  obtain ⟨harrived, hsent⟩ := hw n (Nat.le_trans taskIds hn)
  refine ⟨?_, ?_⟩
  · rw [arrivedOn, arrived]
    exact harrived
  · rw [sentOn, heard, Connector.unheard_of_length_le hn, List.append_nil]
    exact (List.append_eq_nil_iff.1 hsent).1

/-- One step leaves the channels that are not there unused. -/
theorem Unused.step (hw : w.Unused) (hstep : w.Step h w') : w'.Unused := by
  cases hstep with
  | enroll taskId free desk followers past arrived heard =>
    refine hw.of_records arrived heard ?_
    rw [desk]
    exact Nat.le_refl _
  | move before move followers past arrived heard =>
    exact hw.of_records arrived heard move.follows.taskIds.length_le
  | leave caller before leaves followers past arrived heard =>
    exact hw.of_records arrived heard (leaves.taskIds ▸ Nat.le_refl _)
  | aside aside =>
    intro n hn
    obtain ⟨new, harrived, hwaiting⟩ := aside.arrived n
    rw [Connector.waiting_of_length_le hn] at hwaiting
    obtain ⟨hold, hsent⟩ := hw n (aside.taskIds ▸ hn)
    refine ⟨?_, (aside.sent n).trans hsent⟩
    rw [harrived, hold, (List.append_eq_nil_iff.1 hwaiting.symm).2]
    rfl

/-- After every run the channels that are not there are unused. -/
theorem silent_of_length_le (p : Project) (timeout : Nat) (hs : List TaskHappening) :
    ((ofProject p timeout).run hs).Unused :=
  run_induction (P := Unused) (fun _ _ ↦ ⟨rfl, rfl⟩) Unused.step hs

end TaskCourse

/-! ### Where a monitor stands -/

/-- How far a monitor has read what has arrived on its channel. -/
structure Monitor.Reads (m : Monitor) (d : Desk) (texts : List String)
    (arrivedOn : Nat → List ServerFrame) : Prop where
  /-- Nothing is taken in before the channel is open. -/
  unopened : m.channel? = none → texts = []
  /-- What has been taken in is the front of what has arrived. -/
  front : ∀ n, m.channel? = some n → texts.map ServerFrame.text <+: arrivedOn n
  /-- As long as the monitor takes in texts, the rest waits in the channel. -/
  streaming : ∀ deadline n messages rejected, m.stage = .streaming deadline n messages rejected →
    messages = Frame.messages texts ∧ arrivedOn n = texts.map .text ++ d.connector.waiting n

/-- **A turn takes in the text that is the next**, and no other. -/
theorem Monitor.Reads.move {m m' : Monitor} {d d' : Desk} {texts : List String}
    {arrivedOn : Nat → List ServerFrame} {text : Option String} (h : m.Reads d texts arrivedOn)
    (unused : ∀ n, d.connector.taskIds.length ≤ n → arrivedOn n = [])
    (move : Move m d text d' m') : m'.Reads d' (texts ++ text.toList) arrivedOn := by
  cases move with
  | linger opening =>
    rw [Option.toList_none, List.append_nil]
    exact ⟨fun _ ↦ h.unopened opening.channel?_eq, nofun, nofun⟩
  | connect opening free time opened =>
    rw [Option.toList_none, List.append_nil]
    obtain ⟨rfl, hchannel⟩ := Connector.channel?_of_openFor opened
    -- the channel has just been opened, so nothing has arrived on it
    have hempty : arrivedOn d.connector.taskIds.length = [] := unused _ (Nat.le_refl _)
    rw [h.unopened opening.channel?_eq]
    refine ⟨fun _ ↦ rfl, fun n _ ↦ List.nil_prefix, fun _ n _ _ hstage ↦ ?_⟩
    obtain ⟨-, rfl, rfl, -⟩ := MonitorStage.streaming.inj hstage
    refine ⟨rfl, ?_⟩
    rw [hempty, Connector.waiting_eq hchannel]
    rfl
  | @take deadline n rejected messages c c' text stage free time channel received =>
    obtain ⟨rfl, hline⟩ := h.streaming _ _ _ _ stage
    rw [Connector.waiting_of_received channel received, ofChannel_self] at hline
    -- what waited in front is now the last of the texts
    have hline' : arrivedOn n = (texts ++ [text]).map ServerFrame.text ++
        (d.connector.onChannel n fun _ ↦ c').waiting n := by
      rw [hline, List.map_append, List.append_assoc]
      rfl
    refine ⟨nofun, fun n hn ↦ ?_, fun _ n _ _ hstage ↦ ?_⟩
    · obtain rfl := Option.some.inj hn
      exact hline' ▸ List.prefix_append _ _
    · obtain ⟨-, rfl, rfl, -⟩ := MonitorStage.streaming.inj hstage
      exact ⟨(Frame.messages_concat texts _).symm, hline'⟩
  | signal stage told =>
    rw [Option.toList_none, List.append_nil]
    obtain ⟨-, hline⟩ := h.streaming _ _ _ _ stage
    refine ⟨nofun, fun n hn ↦ ?_, nofun⟩
    obtain rfl := Option.some.inj hn
    -- what still waits is left unread
    exact hline ▸ List.prefix_append _ _
  | discard stage channel received =>
    rw [Option.toList_none, List.append_nil]
    exact ⟨h.unopened, h.front, fun _ _ _ _ hstage ↦ by simp [stage] at hstage⟩

namespace TaskCourse

variable {w w' : TaskCourse} {h : TaskHappening} {i : Nat} {m : Monitor}

/-- Where a monitor stands by the past. -/
structure Ledger (w : TaskCourse) (m : Monitor) : Prop where
  reads : m.Reads w.desk (w.textsOf m.ticket) w.arrivedOn
  told : w.toldBy m.ticket = Frame.events (w.textsOf m.ticket)
  running : m.running = RunningNodes.after (w.toldBy m.ticket)

namespace Ledger

/-- A task that has just been registered has no past. -/
theorem of_registered {t : Nat} (texts : w.textsOf t = []) (told : w.toldBy t = [])
    (taskId : String) : w.Ledger (.registered taskId t) := by
  refine ⟨⟨fun _ ↦ texts, nofun, nofun⟩, ?_, ?_⟩ <;> rw [Monitor.registered, told]
  · rw [texts]
    rfl
  · rfl

/-- A monitor that is passed by stands where it stood. -/
theorem aside (hm : w.Ledger m) (aside : w.Aside h w') : w'.Ledger m := by
  have texts := congrFun (textsOf_congr aside.past) m.ticket
  have told := congrFun (toldBy_congr aside.past) m.ticket
  refine ⟨⟨?_, fun n hn ↦ ?_, fun _ n _ _ hstage ↦ ?_⟩, ?_, ?_⟩
  · exact texts ▸ hm.reads.unopened
  · obtain ⟨new, harrived, -⟩ := aside.arrived n
    rw [texts, harrived]
    exact (hm.reads.front n hn).trans (List.prefix_append _ _)
  · obtain ⟨new, harrived, hwaiting⟩ := aside.arrived n
    obtain ⟨hmessages, hline⟩ := hm.reads.streaming _ _ _ _ hstage
    rw [texts, harrived, hwaiting, hline, List.append_assoc]
    exact ⟨hmessages, rfl⟩
  · rw [told, texts, hm.told]
  · rw [told, hm.running]

/-- A turn of the monitor adds to the past what it takes in. -/
theorem move {m' : Monitor} {text : Option String} (hm : w.Ledger m) (hw : w.Unused)
    (move : m.Move w.desk text w'.desk m')
    (past : w'.past = w.past ++
      [⟨m.ticket, text, w'.desk.published.drop w.desk.published.length⟩])
    (arrived : w'.arrived = w.arrived) : w'.Ledger m' := by
  have ticket : m'.ticket = m.ticket := move.follows.ticket
  have texts : w'.textsOf m'.ticket = w.textsOf m.ticket ++ text.toList := by
    rw [ticket, textsOf_concat past, if_pos rfl]
  have told : w'.toldBy m'.ticket = w.toldBy m.ticket ++ (text.bind Frame.event?).toList := by
    rw [ticket, toldBy_concat past, if_pos rfl, move.published, List.drop_left]
  have line : w'.arrivedOn = w.arrivedOn := by
    funext n
    rw [arrivedOn, arrived, arrivedOn]
  refine ⟨?_, ?_, ?_⟩
  · rw [texts, line]
    exact hm.reads.move (fun n hn ↦ (hw n hn).1) move
  · rw [told, texts, Frame.events_append_toList, hm.told]
  · rw [told, RunningNodes.after_append, move.running, hm.running]

end Ledger

/-- **In every course** a monitor stands where the past says. -/
theorem ledger_run (p : Project) (timeout : Nat) (hs : List TaskHappening) :
    ∀ i m, ((ofProject p timeout).run hs).follower? i = some m →
      ((ofProject p timeout).run hs).Ledger m := by
  refine run_induction (P := fun w ↦ ∀ i m, w.follower? i = some m → w.Ledger m)
    (fun i m hi ↦ by simp [ofProject, follower?, call?, callAt?] at hi)
    (fun {hs h w'} ih hstep ↦ ?_) hs
  have seating := seating_run p timeout hs
  have unused := silent_of_length_le p timeout hs
  have notexts := fun t ↦ @textsOf_of_tickets_le p timeout t hs
  have nottold := fun t ↦ @toldBy_of_tickets_le p timeout t hs
  generalize (ofProject p timeout).run hs = w at ih hstep seating unused notexts nottold
  intro j m hj
  cases hstep.stems seating hj with
  | enrolled taskId registered free desk past =>
    rw [registered]
    refine .of_registered ?_ ?_ taskId
    · rw [textsOf_congr past]
      exact notexts _ (Nat.le_refl _)
    · rw [toldBy_congr past]
      exact nottold _ (Nat.le_refl _)
  | moved before move past arrived => exact (ih _ _ before).move unused move past arrived
  | passed before aside => exact (ih _ _ before).aside aside

end TaskCourse

end GraphSession
