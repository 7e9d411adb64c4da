import Mathlib.Data.List.Basic
import Mathlib.Tactic.SplitIfs
import GraphSession.Channel.Connector

/-!
# What goes over the channels

Each channel is two lines: what its client has not taken yet (`Connector.waiting`), and what its
server has not taken yet (`Connector.unheard`). Both are empty for a channel that is not there, so
an opening changes neither.

**Servers** play moves of their own (`ServerMove`). A move puts on the one line exactly what arrives
with it (`ServerMove.arrival?`), and takes from the other exactly what the server hears
(`ServerMove.heard?`); no move opens a channel or gives one to another task.

**A channel is of one task.** Channels are only ever added, and none changes the task it was opened
for (`Connector.taskIds`).
-/

namespace GraphSession

namespace Channel

/-- Taking a message does not change whose channel it is. -/
@[simp] theorem taskId_clientReceive (c : Channel) : c.clientReceive.2.taskId = c.taskId := by
  unfold clientReceive
  split
  · rfl
  · rfl
  · split_ifs <;> rfl

/-- Taking a message is nothing that the server would hear. -/
@[simp] theorem toServer_clientReceive (c : Channel) : c.clientReceive.2.toServer = c.toServer := by
  unfold clientReceive
  split
  · rfl
  · rfl
  · split_ifs <;> rfl

/-- Closing does not change whose channel it is. -/
@[simp] theorem taskId_clientClose (c : Channel) : c.clientClose.taskId = c.taskId := rfl

/-- Sending does not change whose channel it is. -/
theorem taskId_clientSend {c c' : Channel} {s : String} (h : c.clientSend s = .ok c') :
    c'.taskId = c.taskId := by
  unfold clientSend at h
  split_ifs at h
  rw [← Except.ok.inj h]

/-- A text is taken from the front of the line. -/
theorem toClient_of_clientReceive {c c' : Channel} {text : String}
    (h : c.clientReceive = (.frame (.ok text), c')) : c.toClient = .text text :: c'.toClient := by
  unfold clientReceive at h
  split at h
  · next rest hqueue =>
    cases h
    exact hqueue
  · cases h
  · split at h <;> cases h

/-- A channel is found closed only when everything has been taken. -/
theorem toClient_of_closed {c c' : Channel} (h : c.clientReceive = (.closed, c')) :
    c.toClient = [] := by
  unfold clientReceive at h
  split at h
  · cases h
  · cases h
  · assumption

end Channel

namespace Connector

/-- The tasks that the channels were opened for. -/
def taskIds (c : Connector) : List String := c.channels.map Channel.taskId

/-- What the client of a channel has not taken yet. -/
def waiting (c : Connector) (n : Nat) : List ServerFrame := (c.channel? n).elim [] Channel.toClient

/-- What the server of a channel has not taken yet. -/
def unheard (c : Connector) (n : Nat) : List String := (c.channel? n).elim [] Channel.toServer

variable {c c' : Connector} {n : Nat} {f : Channel → Channel} {α : Type}

/-- What is done to one channel changes that one and no other. -/
theorem channel?_onChannel (c : Connector) (n : Nat) (f : Channel → Channel) (k : Nat) :
    (c.onChannel n f).channel? k = if n = k then (c.channel? k).map f else c.channel? k := by
  simp only [channel?, onChannel, List.getElem?_modify]
  split_ifs with hk
  · rfl
  · cases c.channels[k]? <;> rfl

/-- What is done to a channel changes no owner, if it does not change that of the channel. -/
theorem taskIds_onChannel (h : ∀ ch, c.channel? n = some ch → (f ch).taskId = ch.taskId) :
    (c.onChannel n f).taskIds = c.taskIds := by
  refine List.ext_getElem? fun k ↦ ?_
  have hk := channel?_onChannel c n f k
  simp only [channel?] at hk h
  simp only [taskIds, List.getElem?_map, hk]
  split_ifs with heq
  · subst heq
    cases hch : c.channels[n]? with
    | none => rfl
    | some ch => simpa using h ch hch
  · rfl

/-- What is read off a channel stays when nothing that is read is changed. -/
theorem elim_onChannel {b : α} {g : Channel → α}
    (h : ∀ ch, c.channel? n = some ch → g (f ch) = g ch) (k : Nat) :
    ((c.onChannel n f).channel? k).elim b g = (c.channel? k).elim b g := by
  rw [channel?_onChannel]
  split_ifs with hk
  · subst hk
    cases hch : c.channel? n with
    | none => rfl
    | some ch => exact h ch hch
  · rfl

/-- An opening adds a channel of that task, or none. -/
theorem taskIds_of_openFor {taskId : String} {r : Except Failure Nat}
    (h : c.openFor taskId = (r, c')) :
    (∃ e, r = .error e) ∧ c'.taskIds = c.taskIds ∨
      r = .ok c.taskIds.length ∧ c'.taskIds = c.taskIds ++ [taskId] := by
  unfold openFor at h
  split_ifs at h
  · obtain ⟨rfl, rfl⟩ := Prod.mk.inj h
    exact .inl ⟨⟨_, rfl⟩, rfl⟩
  · obtain ⟨rfl, rfl⟩ := Prod.mk.inj h
    exact .inr ⟨by simp [taskIds], by simp [taskIds, Channel.opened]⟩

/-- What is read off a channel stays when one is opened on which there is nothing to read. -/
theorem elim_of_openFor {taskId : String} {r : Except Failure Nat} {b : α} {g : Channel → α}
    (hg : g (.opened taskId) = b) (h : c.openFor taskId = (r, c')) (k : Nat) :
    (c'.channel? k).elim b g = (c.channel? k).elim b g := by
  unfold openFor at h
  split_ifs at h
  · obtain ⟨-, rfl⟩ := Prod.mk.inj h
    rfl
  · obtain ⟨-, rfl⟩ := Prod.mk.inj h
    simp only [channel?]
    rcases Nat.lt_trichotomy k c.channels.length with hk | rfl | hk
    · rw [List.getElem?_append_left hk]
    · rw [List.getElem?_concat_length, List.getElem?_eq_none (Nat.le_refl _)]
      exact hg
    · rw [List.getElem?_eq_none (by simp; omega), List.getElem?_eq_none (by omega)]

/-- A channel that is opened gets the next number, and nothing has gone over it. -/
theorem channel?_of_openFor {taskId : String} (h : c.openFor taskId = (.ok n, c')) :
    n = c.taskIds.length ∧ c'.channel? n = some (.opened taskId) := by
  unfold openFor at h
  split_ifs at h
  · cases (Prod.mk.inj h).1
  · obtain ⟨hn, rfl⟩ := Prod.mk.inj h
    obtain rfl := Except.ok.inj hn
    exact ⟨(List.length_map _).symm, List.getElem?_concat_length⟩

/-- What waits on a channel that was opened is what its client has not taken. -/
theorem waiting_eq {ch : Channel} (h : c.channel? n = some ch) : c.waiting n = ch.toClient := by
  rw [waiting, h]
  rfl

/-- There is nothing on a channel that is not there. -/
theorem channel?_of_length_le (h : c.taskIds.length ≤ n) : c.channel? n = none :=
  List.getElem?_eq_none (by simpa [taskIds] using h)

/-- Nothing waits on a channel that was not opened. -/
theorem waiting_of_length_le (h : c.taskIds.length ≤ n) : c.waiting n = [] := by
  rw [waiting, channel?_of_length_le h, Option.elim_none]

/-- Nobody has been heard on a channel that was not opened. -/
theorem unheard_of_length_le (h : c.taskIds.length ≤ n) : c.unheard n = [] := by
  rw [unheard, channel?_of_length_le h, Option.elim_none]

end Connector

/-- The part of a record that is about one channel. -/
def ofChannel {α : Type} (record : List (Nat × α)) (n : Nat) : List α :=
  record.filterMap fun e ↦ if e.1 = n then some e.2 else none

/-- Nothing has happened on a channel of which nothing is told. -/
@[simp] theorem ofChannel_nil {α : Type} (n : Nat) : ofChannel ([] : List (Nat × α)) n = [] := rfl

/-- What is told of a channel in two parts of a story is told in order. -/
@[simp] theorem ofChannel_append {α : Type} (l l' : List (Nat × α)) (n : Nat) :
    ofChannel (l ++ l') n = ofChannel l n ++ ofChannel l' n :=
  List.filterMap_append

/-- What is told of a channel is told of it. -/
@[simp] theorem ofChannel_self {α : Type} (n : Nat) (a : α) : ofChannel [(n, a)] n = [a] := by
  simp [ofChannel]

/-- What is told of another channel is not told of it. -/
theorem ofChannel_of_ne {α : Type} {k n : Nat} (h : k ≠ n) (a : α) :
    ofChannel [(k, a)] n = [] := by
  simp [ofChannel, h]

namespace Connector

variable {c : Connector} {n : Nat} {ch ch' : Channel} {text : String}

/-- **A text that is taken leaves the front of its line,** and nothing else does. -/
theorem waiting_of_received (hc : c.channel? n = some ch)
    (h : ch.clientReceive = (.frame (.ok text), ch')) (k : Nat) :
    c.waiting k =
      ofChannel [(n, ServerFrame.text text)] k ++ (c.onChannel n fun _ ↦ ch').waiting k := by
  rw [waiting, waiting, channel?_onChannel]
  by_cases hk : n = k
  · subst hk
    simp [hc, Channel.toClient_of_clientReceive h]
  · rw [if_neg hk, ofChannel_of_ne hk, List.nil_append]

/-- Looking for a frame sends nothing. -/
theorem unheard_of_received (hc : c.channel? n = some ch)
    {received : Received (Except Failure String)} (h : ch.clientReceive = (received, ch'))
    (k : Nat) :
    (c.onChannel n fun _ ↦ ch').unheard k = c.unheard k := by
  refine elim_onChannel (g := Channel.toServer) (fun ch₁ hch₁ ↦ ?_) k
  have hserver := ch.toServer_clientReceive
  rw [h] at hserver
  rw [← Option.some.inj (hc.symm.trans hch₁), ← hserver]

end Connector

/-- What servers do on their ends of the channels. -/
inductive ServerMove where
  /-- Refuses the next opening. -/
  | refuse
  /-- Holds openings up, or lets them go on. -/
  | holdUp (b : Bool)
  /-- Takes the next channel. -/
  | accept
  | push (n : Nat) (f : ServerFrame)
  | receive (n : Nat)
  | close (n : Nat)
  /-- Breaks the channel. -/
  | fail (n : Nat) (reason : String)

namespace ServerMove

/-- What a server makes of the connector by a move. -/
def play (c : Connector) : ServerMove → Connector
  | refuse => c.refuseNext
  | holdUp b => c.holdUp b
  | accept => c.accept?.elim c fun r ↦ r.2.2
  | push n f => c.onChannel n fun ch ↦ ch.push f
  | receive n => c.onChannel n fun ch ↦ ch.serverReceive.2
  | close n => c.onChannel n Channel.serverClose
  | fail n reason => c.onChannel n fun ch ↦ ch.serverFail reason

/-- A frame that arrives on a channel, if it does. -/
def arriving (c : Connector) (n : Nat) (f : ServerFrame) : Option (Nat × ServerFrame) :=
  (c.channel? n).bind fun ch ↦ if ch.arrives then some (n, f) else none

/-- What arrives with a move, and on which channel. -/
def arrival? (c : Connector) : ServerMove → Option (Nat × ServerFrame)
  | push n f => arriving c n f
  | fail n reason => arriving c n (.failure reason)
  | _ => none

/-- What the server hears with a move, and on which channel. -/
def heard? (c : Connector) : ServerMove → Option (Nat × String)
  | receive n =>
    (c.channel? n).bind fun ch ↦
      match ch.serverReceive with
      | (.frame s, _) => some (n, s)
      | _ => none
  | _ => none

/-- Taking a channel leaves it as it is. -/
theorem channels_accept (c : Connector) : (play c accept).channels = c.channels := by
  simp only [play, Connector.accept?]
  cases c.channels[c.accepted]? <;> rfl

/-- Servers open no channel, and no channel changes its task. -/
theorem taskIds_play (m : ServerMove) (c : Connector) : (m.play c).taskIds = c.taskIds := by
  cases m with
  | refuse => rfl
  | holdUp b => rfl
  | accept => rw [Connector.taskIds, channels_accept, Connector.taskIds]
  | push n f =>
    refine Connector.taskIds_onChannel fun ch _ ↦ ?_
    unfold Channel.push
    split_ifs <;> rfl
  | receive n =>
    refine Connector.taskIds_onChannel fun ch _ ↦ ?_
    unfold Channel.serverReceive
    split <;> rfl
  | close n => exact Connector.taskIds_onChannel fun _ _ ↦ rfl
  | fail n reason =>
    refine Connector.taskIds_onChannel fun ch _ ↦ ?_
    unfold Channel.serverFail Channel.serverClose Channel.push
    split_ifs <;> rfl

/-- What arrives on a channel joins its line at the end. -/
theorem waiting_onChannel_of_arriving {c : Connector} {k : Nat} {g : ServerFrame}
    {f : Channel → Channel}
    (hf : ∀ ch, (f ch).toClient = if ch.arrives then ch.toClient ++ [g] else ch.toClient)
    (n : Nat) :
    (c.onChannel k f).waiting n = c.waiting n ++ ofChannel (arriving c k g).toList n := by
  unfold arriving
  rw [Connector.waiting, Connector.waiting, Connector.channel?_onChannel]
  by_cases hk : k = n
  · subst hk
    rw [if_pos rfl]
    cases hch : c.channel? k with
    | none => rfl
    | some ch =>
      simp only [Option.map_some, Option.elim_some, Option.bind_some, hf]
      split_ifs <;> simp
  · rw [if_neg hk]
    cases c.channel? k with
    | none => simp
    | some ch =>
      simp only [Option.bind_some]
      split_ifs <;> simp [ofChannel_of_ne hk]

/-- **What arrives joins the line,** and nothing else happens to what waits for clients. -/
theorem waiting_play (m : ServerMove) (c : Connector) (n : Nat) :
    (m.play c).waiting n = c.waiting n ++ ofChannel (m.arrival? c).toList n := by
  cases m with
  | refuse => simp [play, arrival?, Connector.refuseNext, Connector.waiting, Connector.channel?]
  | holdUp b => simp [play, arrival?, Connector.holdUp, Connector.waiting, Connector.channel?]
  | accept => simp [arrival?, Connector.waiting, Connector.channel?, channels_accept]
  | push k f =>
    refine waiting_onChannel_of_arriving (fun ch ↦ ?_) n
    unfold Channel.push
    split_ifs <;> rfl
  | receive k =>
    simp only [play, arrival?, Option.toList_none, ofChannel_nil, List.append_nil]
    refine Connector.elim_onChannel (g := Channel.toClient) (fun ch _ ↦ ?_) n
    unfold Channel.serverReceive
    split <;> rfl
  | close k =>
    simp only [play, arrival?, Option.toList_none, ofChannel_nil, List.append_nil]
    exact Connector.elim_onChannel (g := Channel.toClient) (f := Channel.serverClose)
      (fun ch _ ↦ rfl) n
  | fail k reason =>
    refine waiting_onChannel_of_arriving (fun ch ↦ ?_) n
    unfold Channel.serverFail Channel.serverClose Channel.push
    split_ifs <;> rfl

/-- **What the server hears leaves the line,** and nothing else happens to what clients have
sent. -/
theorem unheard_play (m : ServerMove) (c : Connector) (n : Nat) :
    c.unheard n = ofChannel (m.heard? c).toList n ++ (m.play c).unheard n := by
  cases m with
  | refuse => simp [play, heard?, Connector.refuseNext, Connector.unheard, Connector.channel?]
  | holdUp b => simp [play, heard?, Connector.holdUp, Connector.unheard, Connector.channel?]
  | accept => simp [heard?, Connector.unheard, Connector.channel?, channels_accept]
  | receive k =>
    simp only [play, heard?, Connector.unheard, Connector.channel?_onChannel]
    by_cases hk : k = n
    · -- the server of this channel takes the first text of the line, if there is one
      subst hk
      rw [if_pos rfl]
      cases hch : c.channel? k with
      | none => rfl
      | some ch =>
        simp only [Option.map_some, Option.elim_some, Option.bind_some, Channel.serverReceive]
        cases hline : ch.toServer with
        | nil => cases ch.clientOpen <;> simp [hline]
        | cons s rest => simp
    · -- another server hears nothing of this line
      rw [if_neg hk]
      cases c.channel? k with
      | none => simp
      | some ch =>
        simp only [Option.bind_some]
        split <;> simp [ofChannel_of_ne hk]
  | push k f =>
    -- what a server sends or closes is no matter of what its client has sent
    refine (Connector.elim_onChannel (fun ch _ ↦ ?_) n).symm
    unfold Channel.push
    split_ifs <;> rfl
  | close k =>
    exact (Connector.elim_onChannel (g := Channel.toServer) (f := Channel.serverClose)
      (fun ch _ ↦ rfl) n).symm
  | fail k reason =>
    refine (Connector.elim_onChannel (fun ch _ ↦ ?_) n).symm
    unfold Channel.serverFail Channel.serverClose Channel.push
    split_ifs <;> rfl

end ServerMove

end GraphSession
