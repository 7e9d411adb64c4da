import GraphSession.Proofs.Task.Intake

/-!
# How a task ends that was told to

A monitor that has been told to end does so after a bounded number of turns, whatever its server
does not do: it tells the server, throws away the frames that wait in its channel, and leaves when
there are none, at the latest when its grace is over. How far it has to go is counted by
`Monitor.remaining`.
-/

namespace GraphSession

namespace Monitor

/-- The channel of a monitor, if it is open, is there. -/
def IsConnected (m : Monitor) (d : Desk) : Prop :=
  ∀ n, m.channel? = some n → ∃ c, d.connector.channel? n = some c

/-- How many frames wait in a channel. -/
def backlog (d : Desk) (n : Nat) : Nat :=
  (d.connector.channel? n).elim 0 fun c ↦ c.toClient.length

/-- How many turns a monitor that was told to end may go on for. -/
def remaining (m : Monitor) (d : Desk) : Nat :=
  match m.stage with
  | .registered | .opening _ => 0
  | .streaming _ n _ _ => backlog d n + 1
  | .draining n _ => backlog d n

variable {d d' : Desk} {m m' : Monitor} {first : Nat}

/-- A tuned monitor has its channel. -/
theorem Tuned.isConnected (h : m.Tuned first d) : m.IsConnected d := by
  intro n hn
  obtain ⟨-, hid⟩ := h.own n hn
  rw [Connector.taskIds, List.getElem?_map] at hid
  obtain ⟨c, hc, -⟩ := Option.map_eq_some_iff.1 hid
  exact ⟨c, hc⟩

theorem channel?_onChannel {n : Nat} {c : Channel} (hc : d.connector.channel? n = some c)
    (f : Channel → Channel) : (d.onChannel n f).connector.channel? n = some (f c) := by
  rw [Desk.onChannel, Desk.onConnector, Connector.channel?_onChannel, if_pos rfl, hc,
    Option.map_some]

/-- Taking a text out of a channel leaves fewer frames in it. -/
theorem length_clientReceive_lt {c c' : Channel} {text : String}
    (h : c.clientReceive = (.frame (.ok text), c')) : c'.toClient.length < c.toClient.length := by
  rw [Channel.toClient_of_clientReceive h]
  exact Nat.lt_succ_self _

/-- A task that is told to end before its channel is open ends at once. -/
theorem turnOpening_of_isCancelled (h : d.isCancelled m.ticket = true) (deadline : Nat) :
    m.turnOpening d deadline = .ends (m.finish d .cancelled) m.cancelledError := by
  rw [turnOpening, if_pos h]

/-- **A monitor that waits for its server to end** ends on its turn, or throws a frame away, or
waits for its grace to be over. -/
theorem turnDraining_cases {n : Nat} (hopen : ∃ c, d.connector.channel? n = some c)
    (graceEnd : Nat) :
    (∃ d' o, m.turnDraining d n graceEnd = .ends d' o) ∨
      (∃ d', m.turnDraining d n graceEnd = .moves d' m ∧ backlog d' n < backlog d n) ∨
      m.turnDraining d n graceEnd = .waits ∧
        ∃ ms d' o, m.turnDraining (d.advance ms) n graceEnd = .ends d' o := by
  obtain ⟨c, hc⟩ := hopen
  have hc' : ∀ ms, (d.advance ms).connector.channel? n = some c := fun _ ↦ hc
  rcases hreceive : c.clientReceive with ⟨received, c'⟩
  simp only [turnDraining, hc, hc', hreceive]
  cases received with
  | frame f =>
    cases f with
    | ok text =>
      refine .inr (.inl ⟨_, rfl, ?_⟩)
      simp only [backlog, channel?_onChannel hc, hc, Option.elim_some]
      exact length_clientReceive_lt hreceive
    | error e => exact .inl ⟨_, _, rfl⟩
  | closed => exact .inl ⟨_, _, rfl⟩
  | pending =>
    by_cases hgrace : graceEnd ≤ d.now
    · exact .inl ⟨_, _, if_pos hgrace⟩
    · -- it is over once that much time has passed
      have hover : graceEnd ≤ (d.advance graceEnd).now := Nat.le_add_left _ _
      exact .inr (.inr ⟨if_neg hgrace, graceEnd, _, _, if_pos hover⟩)

/-- **A monitor that was told to end** ends on its turn, or has come closer to its end, or waits for
its grace to be over. -/
theorem turn_of_isTold (hopen : m.IsConnected d) (htold : m.isTold d = true) :
    (∃ d' o, m.turn d = .ends d' o) ∨
      (∃ d' m', m.turn d = .moves d' m' ∧ m'.isTold d' = true ∧ m'.remaining d' < m.remaining d) ∨
      m.turn d = .waits ∧ ∃ ms d' o, m.turn (d.advance ms) = .ends d' o := by
  unfold turn
  cases hstage : m.stage with
  | registered =>
    have hcancelled : d.isCancelled m.ticket = true := by
      simpa [isTold, isDraining, hstage] using htold
    simp only [turnRegistered, turnOpening_of_isCancelled hcancelled]
    exact .inl ⟨_, _, rfl⟩
  | opening deadline =>
    have hcancelled : d.isCancelled m.ticket = true := by
      simpa [isTold, isDraining, hstage] using htold
    exact .inl ⟨_, _, turnOpening_of_isCancelled hcancelled deadline⟩
  | streaming deadline n messages rejected =>
    have hcancelled : d.isCancelled m.ticket = true := by
      simpa [isTold, isDraining, hstage] using htold
    obtain ⟨c, hc⟩ := hopen n (by rw [channel?, hstage])
    simp only [turnStreaming, if_pos hcancelled]
    refine .inr (.inl ⟨_, _, rfl, by simp [isTold, isDraining], ?_⟩)
    simp only [remaining, hstage, backlog, channel?_onChannel hc, hc, Option.elim_some]
    -- telling the server leaves the frames that wait
    unfold Channel.clientSend
    split_ifs <;> exact Nat.lt_succ_self _
  | draining n graceEnd =>
    rcases turnDraining_cases (hopen n (by rw [channel?, hstage])) graceEnd with
      hends | ⟨d', hmoves, hless⟩ | hwaits
    · exact .inl hends
    · refine .inr (.inl ⟨d', m, hmoves, by simp [isTold, isDraining, hstage], ?_⟩)
      simpa only [remaining, hstage] using hless
    · exact .inr (.inr hwaits)

end Monitor

end GraphSession
