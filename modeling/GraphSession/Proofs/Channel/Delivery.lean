import Mathlib.Data.List.Induction
import Mathlib.Tactic.SplitIfs
import GraphSession.Patch.Frame
import GraphSession.Proofs.Channel.Lines
import GraphSession.Proofs.Schedule.Moments

/-!
# What a channel delivers

Both sides do what they like, in any order (`ChannelCourse.run`), and what they do is written down
with the answers they get (`ChannelRecord`). To break a channel is to push a frame and to close;
somebody else may come between the two, so a failure may also be pushed alone.

**A channel is two lines.** Of all that is written down each direction sees its own part
(`ChannelRecord.toClient?`, `ChannelRecord.toServer?`): what is put on the line and whether it gets
there, what is taken at the other end, and that the line is closed. What a line owes to both of its
ends (`LineRecord.Delivers`) is the same for both directions. They differ only in who closes them:
whoever closes or leaves, there will be no more frames for the client; but a server that only closes
goes on listening, and one that leaves tells its client only that nobody listens.
-/

namespace GraphSession

/-- What can be told of one direction of a channel. -/
inductive LineRecord (α : Type) where
  /-- Something is put on the line, and it gets there or not. -/
  | put (a : α) (gets : Bool)
  /-- Somebody looks for something at the other end. -/
  | took (r : Received α)
  /-- From now on nothing gets there. -/
  | stopped
  /-- The line is closed: nothing gets there any more, and whoever has taken everything is told
  so. -/
  | closed

namespace LineRecord

variable {α : Type} {past : List (LineRecord α)} {queue : List α} {a : α}

/-- What has got there, in order. -/
def arrived : List (LineRecord α) → List α :=
  List.filterMap fun
    | put a true => some a
    | put _ false | took _ | stopped | closed => none

/-- What has been taken, in order. -/
def taken : List (LineRecord α) → List α :=
  List.filterMap fun
    | took (.frame a) => some a
    | took .closed | took .pending | put _ _ | stopped | closed => none

/-- What is put on a line gets there unless it is over; who finds nothing has taken everything, and
is told whether there may be more. -/
def Lawful (before : List (LineRecord α)) : LineRecord α → Prop
  | put _ gets => gets = true ↔ closed ∉ before ∧ stopped ∉ before
  | took .closed => taken before = arrived before ∧ closed ∈ before
  | took .pending => taken before = arrived before ∧ closed ∉ before
  | took (.frame _) | stopped | closed => True

/-- The line is as the record says: what has got there and was not taken waits in order. -/
structure Holds (queue : List α) (past : List (LineRecord α)) : Prop where
  queue : arrived past = taken past ++ queue
  lawful : ∀ before r after, past = before ++ r :: after → r.Lawful before

/-- What has arrived in a record and its continuation. -/
theorem arrived_append (past rest : List (LineRecord α)) :
    arrived (past ++ rest) = arrived past ++ arrived rest :=
  List.filterMap_append

/-- What was taken in a record and its continuation. -/
theorem taken_append (past rest : List (LineRecord α)) :
    taken (past ++ rest) = taken past ++ taken rest :=
  List.filterMap_append

namespace Holds

/-- Nothing is on a line on which nothing has happened. -/
theorem start : Holds [] ([] : List (LineRecord α)) :=
  ⟨rfl, fun _ _ _ hsplit ↦ absurd hsplit (by simp)⟩

/-- What gets there waits at the end. -/
theorem put (h : Holds queue past) (a : α) {gets : Bool}
    (hgets : gets = true ↔ closed ∉ past ∧ stopped ∉ past) :
    Holds (if gets then queue ++ [a] else queue) (past ++ [.put a gets]) := by
  refine ⟨?_, forall_moment_concat h.lawful hgets⟩
  rw [arrived_append, taken_append, h.queue]
  cases gets <;> simp [arrived, taken]

/-- What waits longest is taken first. -/
theorem take (h : Holds (a :: queue) past) : Holds queue (past ++ [took (.frame a)]) := by
  refine ⟨?_, forall_moment_concat h.lawful trivial⟩
  rw [arrived_append, taken_append, h.queue]
  simp [arrived, taken]

/-- Nothing waits: there will be nothing any more, or there may be later. -/
theorem findNothing (h : Holds [] past) {r : Received α}
    (hr : r = .closed ∧ closed ∈ past ∨ r = .pending ∧ closed ∉ past) :
    Holds [] (past ++ [took r]) := by
  have hall : taken past = arrived past := (h.queue.trans (List.append_nil _)).symm
  rcases hr with ⟨rfl, hclosed⟩ | ⟨rfl, hopen⟩
  · refine ⟨?_, forall_moment_concat h.lawful ⟨hall, hclosed⟩⟩
    simpa [arrived_append, taken_append, arrived, taken] using hall.symm
  · refine ⟨?_, forall_moment_concat h.lawful ⟨hall, hopen⟩⟩
    simpa [arrived_append, taken_append, arrived, taken] using hall.symm

/-- That nobody listens any more leaves what is on the line. -/
theorem stop (h : Holds queue past) : Holds queue (past ++ [stopped]) := by
  refine ⟨?_, forall_moment_concat h.lawful trivial⟩
  simpa [arrived_append, taken_append, arrived, taken] using h.queue

/-- That nobody sends any more leaves what is on the line. -/
theorem close (h : Holds queue past) : Holds queue (past ++ [closed]) := by
  refine ⟨?_, forall_moment_concat h.lawful trivial⟩
  simpa [arrived_append, taken_append, arrived, taken] using h.queue

/-- Nothing happens to this line. -/
theorem aside (h : Holds queue past) : Holds queue (past ++ []) := (List.append_nil past).symm ▸ h

/-- **Nothing gets to where a line is closed.** -/
theorem arrived_of_closed {before after : List (LineRecord α)} (h : Holds queue (before ++ after))
    (hclosed : closed ∈ before) : arrived (before ++ after) = arrived before := by
  have hnothing : arrived after = [] := by
    refine List.filterMap_eq_nil_iff.2 fun r hr ↦ ?_
    obtain ⟨between, rest, rfl⟩ := List.append_of_mem hr
    have hlawful := h.lawful (before ++ between) r rest (by simp)
    cases r with
    | put a gets =>
      cases gets with
      | true => exact absurd (List.mem_append_left between hclosed) (hlawful.1 rfl).1
      | false => rfl
    | took r | stopped | closed => rfl
  rw [arrived_append, hnothing, List.append_nil]

end Holds

/-- What a line owes to both of its ends. -/
structure Delivers (past : List (LineRecord α)) : Prop where
  /-- What was taken is what has got there, in order and up to some point. -/
  inOrder : taken past <+: arrived past
  /-- What is put on the line gets there, unless it is over. -/
  getsThere : ∀ before a gets after, past = before ++ put a gets :: after →
    (gets = true ↔ closed ∉ before ∧ stopped ∉ before)
  /-- Who is told that there will be nothing more has taken all that ever gets there, and the line
  is closed. -/
  atEnd : ∀ before after, past = before ++ took .closed :: after →
    taken before = arrived past ∧ closed ∈ before
  /-- Who is told to wait has taken all that has got there so far, and the line is not closed. -/
  meanwhile : ∀ before after, past = before ++ took .pending :: after →
    taken before = arrived before ∧ closed ∉ before

/-- A line that holds what has arrived and was not taken delivers in order, and loses nothing. -/
theorem Holds.delivers (h : Holds queue past) : Delivers past where
  inOrder := h.queue ▸ List.prefix_append _ _
  getsThere before a gets after hsplit := h.lawful before (.put a gets) after hsplit
  atEnd before after hsplit := by
    obtain ⟨hall, hclosed⟩ := h.lawful before (.took .closed) after hsplit
    refine ⟨hall.trans ?_, hclosed⟩
    rw [hsplit] at h ⊢
    exact (h.arrived_of_closed hclosed).symm
  meanwhile before after hsplit := h.lawful before (.took .pending) after hsplit

end LineRecord

namespace Channel

/-- The ends are open or closed as before. -/
structure SameEnds (ch ch' : Channel) : Prop where
  serverOpen : ch.serverOpen = ch'.serverOpen
  clientOpen : ch.clientOpen = ch'.clientOpen
  listening : ch.listening = ch'.listening

/-- What the server pushes arrives behind what is already there, if it arrives. -/
theorem toClient_push (c : Channel) (f : ServerFrame) :
    (c.push f).toClient = if c.arrives then c.toClient ++ [f] else c.toClient := by
  unfold push
  split_ifs <;> rfl

/-- What the server pushes is nothing that the client has sent. -/
theorem toServer_push (c : Channel) (f : ServerFrame) : (c.push f).toServer = c.toServer := by
  unfold push
  split_ifs <;> rfl

/-- Pushing changes nothing about who is there. -/
theorem sameEnds_push (c : Channel) (f : ServerFrame) : (c.push f).SameEnds c := by
  unfold push
  split_ifs <;> exact ⟨rfl, rfl, rfl⟩

/-- Nor does taking on the side of the server. -/
theorem sameEnds_serverReceive (c : Channel) : c.serverReceive.2.SameEnds c := by
  unfold serverReceive
  split <;> exact ⟨rfl, rfl, rfl⟩

/-- Nor does taking on the side of the client. -/
theorem sameEnds_clientReceive (c : Channel) : c.clientReceive.2.SameEnds c := by
  unfold clientReceive
  split
  · exact ⟨rfl, rfl, rfl⟩
  · exact ⟨rfl, rfl, rfl⟩
  · split_ifs <;> exact ⟨rfl, rfl, rfl⟩

end Channel

/-- What the client finds in a frame. -/
def ServerFrame.content : ServerFrame → Except Failure String
  | .text s => .ok s
  | .failure reason => .error (.transport (.request reason))

/-- What can be told of a channel. -/
inductive ChannelRecord where
  | pushed (f : ServerFrame) (arrives : Bool)
  | serverClosed
  | serverLeft
  | serverReceived (r : Received String)
  | clientSent (s : String) (arrives : Bool)
  | clientReceived (r : Received (Except Failure String))
  /-- The client has closed its end or is gone. -/
  | clientClosed

namespace ChannelRecord

/-- What happens to the line to the client. -/
def toClient? : ChannelRecord → Option (LineRecord (Except Failure String))
  | pushed f arrives => some (.put f.content arrives)
  | clientReceived r => some (.took r)
  | serverClosed | serverLeft | clientClosed => some .closed
  | clientSent _ _ | serverReceived _ => none

/-- What happens to the line to the server. -/
def toServer? : ChannelRecord → Option (LineRecord String)
  | clientSent s arrives => some (.put s arrives)
  | serverReceived r => some (.took r)
  | clientClosed => some .closed
  | serverLeft => some .stopped
  | pushed _ _ | clientReceived _ | serverClosed => none

/-- All that happens to the line to the client. -/
def clientLine (past : List ChannelRecord) : List (LineRecord (Except Failure String)) :=
  past.filterMap toClient?

/-- All that happens to the line to the server. -/
def serverLine (past : List ChannelRecord) : List (LineRecord String) := past.filterMap toServer?

variable {past : List ChannelRecord} {ch ch' : Channel} {r : ChannelRecord}

/-- One more move adds to the line to the client what it does there. -/
theorem clientLine_concat (past : List ChannelRecord) (r : ChannelRecord) :
    clientLine (past ++ [r]) = clientLine past ++ r.toClient?.toList := by
  rw [clientLine, List.filterMap_append]
  cases r <;> rfl

/-- One more move adds to the line to the server what it does there. -/
theorem serverLine_concat (past : List ChannelRecord) (r : ChannelRecord) :
    serverLine (past ++ [r]) = serverLine past ++ r.toServer?.toList := by
  rw [serverLine, List.filterMap_append]
  cases r <;> rfl

/-- Nothing more comes to the client once either side has closed, or the server has left. -/
theorem closed_mem_clientLine :
    .closed ∈ clientLine past ↔ serverClosed ∈ past ∨ serverLeft ∈ past ∨ clientClosed ∈ past := by
  rw [clientLine, List.mem_filterMap]
  constructor
  · rintro ⟨r, hr, hclosed⟩
    cases r with
    | serverClosed => exact .inl hr
    | serverLeft => exact .inr (.inl hr)
    | clientClosed => exact .inr (.inr hr)
    | pushed f arrives | clientReceived r | clientSent s arrives | serverReceived r => cases hclosed
  · rintro (hr | hr | hr) <;> exact ⟨_, hr, rfl⟩

/-- The client never stops listening without closing. -/
theorem stopped_notMem_clientLine : .stopped ∉ clientLine past := by
  rw [clientLine, List.mem_filterMap]
  rintro ⟨r, -, hstopped⟩
  cases r <;> cases hstopped

/-- Nothing more comes to the server once the client has closed. -/
theorem closed_mem_serverLine : .closed ∈ serverLine past ↔ clientClosed ∈ past := by
  rw [serverLine, List.mem_filterMap]
  constructor
  · rintro ⟨r, hr, hclosed⟩
    cases r with
    | clientClosed => exact hr
    | pushed f arrives | serverClosed | serverLeft | clientReceived r | clientSent s arrives
    | serverReceived r => cases hclosed
  · exact fun hr ↦ ⟨_, hr, rfl⟩

/-- The server stops listening when it leaves. -/
theorem stopped_mem_serverLine : .stopped ∈ serverLine past ↔ serverLeft ∈ past := by
  rw [serverLine, List.mem_filterMap]
  constructor
  · rintro ⟨r, hr, hstopped⟩
    cases r with
    | serverLeft => exact hr
    | pushed f arrives | serverClosed | clientClosed | clientReceived r | clientSent s arrives
    | serverReceived r => cases hstopped
  · exact fun hr ↦ ⟨_, hr, rfl⟩

end ChannelRecord

namespace Channel

open ChannelRecord

variable {ch ch' : Channel} {past : List ChannelRecord} {r : ChannelRecord}

/-- The ends of a channel are as the record says. -/
structure EndsAs (ch : Channel) (past : List ChannelRecord) : Prop where
  serverOpen : ch.serverOpen = true ↔ serverClosed ∉ past ∧ serverLeft ∉ past
  clientOpen : ch.clientOpen = true ↔ clientClosed ∉ past
  listening : ch.listening = true ↔ serverLeft ∉ past

/-- What closes no end leaves the ends. -/
theorem EndsAs.note (h : ch.EndsAs past) (hends : ch'.SameEnds ch)
    (hr : r ≠ serverClosed ∧ r ≠ serverLeft ∧ r ≠ clientClosed) : ch'.EndsAs (past ++ [r]) := by
  obtain ⟨hserver, hclient, hlistening⟩ := hends
  obtain ⟨hclose, hleave, hclosed⟩ := hr
  refine ⟨?_, ?_, ?_⟩
  · simp [hserver, h.serverOpen, Ne.symm hclose, Ne.symm hleave]
  · simp [hclient, h.clientOpen, Ne.symm hclosed]
  · simp [hlistening, h.listening, Ne.symm hleave]

/-- A channel is as its record says. -/
structure Tells (ch : Channel) (past : List ChannelRecord) : Prop where
  ends : ch.EndsAs past
  client : LineRecord.Holds (ch.toClient.map ServerFrame.content) (clientLine past)
  server : LineRecord.Holds ch.toServer (serverLine past)

namespace Tells

/-- A channel that was just opened tells of no moves. -/
theorem opened (taskId : String) : (Channel.opened taskId).Tells [] :=
  ⟨⟨by simp [Channel.opened], by simp [Channel.opened], by simp [Channel.opened]⟩, .start, .start⟩

/-- One more record, with what it says of both lines. -/
theorem note (hends : ch'.EndsAs (past ++ [r]))
    (hclient : LineRecord.Holds (ch'.toClient.map ServerFrame.content)
      (clientLine past ++ r.toClient?.toList))
    (hserver : LineRecord.Holds ch'.toServer (serverLine past ++ r.toServer?.toList)) :
    ch'.Tells (past ++ [r]) :=
  ⟨hends, clientLine_concat past r ▸ hclient, serverLine_concat past r ▸ hserver⟩

/-- A message of the server arrives unless the line to the client has come to an end. -/
theorem arrives_iff (h : ch.Tells past) :
    ch.arrives = true ↔ .closed ∉ clientLine past ∧ .stopped ∉ clientLine past := by
  rw [closed_mem_clientLine, arrives, Bool.and_eq_true, h.ends.serverOpen, h.ends.clientOpen]
  simp only [not_or, stopped_notMem_clientLine, not_false_eq_true, and_true, and_assoc]

/-- A message of the client arrives unless the line to the server has come to an end. -/
theorem listens_iff (h : ch.Tells past) :
    (ch.clientOpen && ch.listening) = true ↔
      .closed ∉ serverLine past ∧ .stopped ∉ serverLine past := by
  rw [closed_mem_serverLine, stopped_mem_serverLine, Bool.and_eq_true, h.ends.clientOpen,
    h.ends.listening]

/-! ### Frames -/

/-- Sending by the server, whether it arrives or not. -/
theorem serverSend (h : ch.Tells past) (f : ServerFrame) :
    (ch.serverSend f).2.Tells (past ++ [pushed f (ch.serverSend f).1]) := by
  have hput := h.client.put f.content h.arrives_iff
  refine note (h.ends.note (ch.sameEnds_push f) ⟨nofun, nofun, nofun⟩) ?_ ?_
  · rw [Channel.serverSend, toClient_push]
    split_ifs at hput ⊢
    · rwa [List.map_append]
    · exact hput
  · rw [Channel.serverSend, toServer_push]
    exact h.server.aside

/-- A frame that waits is taken; otherwise it is said whether there may be more. -/
theorem clientReceive (h : ch.Tells past) :
    ch.clientReceive.2.Tells (past ++ [clientReceived ch.clientReceive.1]) := by
  have hline := h.client
  refine note (h.ends.note ch.sameEnds_clientReceive ⟨nofun, nofun, nofun⟩) ?_ ?_
  · have harrives := h.arrives_iff
    rw [and_iff_left stopped_notMem_clientLine] at harrives
    unfold Channel.clientReceive
    split
    · next hqueue => exact (hqueue ▸ hline).take
    · next hqueue => exact (hqueue ▸ hline).take
    · next hqueue =>
      rw [hqueue] at hline
      split_ifs with hopen
      · rw [hqueue]
        exact hline.findNothing (.inr ⟨rfl, harrives.1 hopen⟩)
      · rw [hqueue]
        exact hline.findNothing (.inl ⟨rfl, not_not.1 (mt harrives.2 hopen)⟩)
  · rw [toServer_clientReceive]
    exact h.server.aside

/-- Sending by the client, when it arrives. -/
theorem clientSend_ok (h : ch.Tells past) {s : String} (hsend : ch.clientSend s = .ok ch') :
    ch'.Tells (past ++ [clientSent s true]) := by
  unfold Channel.clientSend at hsend
  split_ifs at hsend with hlistens
  obtain rfl := Except.ok.inj hsend
  have hput := h.server.put s h.listens_iff
  rw [hlistens] at hput
  exact note (h.ends.note ⟨rfl, rfl, rfl⟩ ⟨nofun, nofun, nofun⟩) h.client.aside hput

/-- Sending by the client, when it fails and changes nothing. -/
theorem clientSend_error (h : ch.Tells past) {s : String} {e : Failure}
    (hsend : ch.clientSend s = .error e) :
    ch.Tells (past ++ [clientSent s false]) := by
  unfold Channel.clientSend at hsend
  split_ifs at hsend with hlistens
  have hput := h.server.put s h.listens_iff
  rw [eq_false_of_ne_true hlistens] at hput
  exact note (h.ends.note ⟨rfl, rfl, rfl⟩ ⟨nofun, nofun, nofun⟩) h.client.aside hput

/-- Taking by the server. -/
theorem serverReceive (h : ch.Tells past) :
    ch.serverReceive.2.Tells (past ++ [serverReceived ch.serverReceive.1]) := by
  have hline := h.server
  refine note (h.ends.note ch.sameEnds_serverReceive ⟨nofun, nofun, nofun⟩) ?_ ?_
  · have hclient : ch.serverReceive.2.toClient = ch.toClient := by
      unfold Channel.serverReceive
      split <;> rfl
    rw [hclient]
    exact h.client.aside
  · have hopen : ch.clientOpen = true ↔ .closed ∉ serverLine past := by
      rw [h.ends.clientOpen, closed_mem_serverLine]
    unfold Channel.serverReceive
    split
    · next hqueue => exact (hqueue ▸ hline).take
    · next hqueue =>
      rw [hqueue] at hline ⊢
      split_ifs with hclient
      · exact hline.findNothing (.inr ⟨rfl, hopen.1 hclient⟩)
      · exact hline.findNothing (.inl ⟨rfl, not_not.1 (mt hopen.2 hclient)⟩)

/-! ### Ends -/

/-- The server closes its side. -/
theorem serverClose (h : ch.Tells past) : ch.serverClose.Tells (past ++ [serverClosed]) := by
  refine note ⟨?_, ?_, ?_⟩ h.client.close h.server.aside
  · simp [Channel.serverClose]
  · simpa [Channel.serverClose] using h.ends.clientOpen
  · simpa [Channel.serverClose] using h.ends.listening

/-- The server leaves, and nobody listens to the client any more. -/
theorem serverLeave (h : ch.Tells past) : ch.serverLeave.Tells (past ++ [serverLeft]) := by
  refine note ⟨?_, ?_, ?_⟩ h.client.close h.server.stop
  · simp [Channel.serverLeave, Channel.serverClose]
  · simpa [Channel.serverLeave, Channel.serverClose] using h.ends.clientOpen
  · simp [Channel.serverLeave]

/-- The client closes, and nothing is taken after that. -/
theorem clientClose (h : ch.Tells past) : ch.clientClose.Tells (past ++ [clientClosed]) := by
  refine note ⟨?_, ?_, ?_⟩ h.client.close h.server.close
  · simpa [Channel.clientClose] using h.ends.serverOpen
  · simp [Channel.clientClose]
  · simpa [Channel.clientClose] using h.ends.listening

end Tells

end Channel

/-! ### Whatever happens on a channel -/

/-- What the two sides may do. -/
inductive ChannelMove where
  | push (f : ServerFrame)
  | post (m : TaskMessage)
  | fail (reason : String)
  | serverClose
  | serverLeave
  | serverReceive
  | clientSend (s : String)
  | clientReceive
  | clientClose

/-- A channel with what has happened on it. -/
structure ChannelCourse where
  channel : Channel
  past : List ChannelRecord

namespace ChannelCourse

open ChannelRecord

/-- What a move makes of a channel, and what it adds to the record. -/
def step (c : ChannelCourse) : ChannelMove → ChannelCourse
  | .push f =>
    let (arrives, ch) := c.channel.serverSend f
    ⟨ch, c.past ++ [pushed f arrives]⟩
  | .post m =>
    let (arrives, ch) := c.channel.serverSend (.text m.text)
    ⟨ch, c.past ++ [pushed (.text m.text) arrives]⟩
  | .fail reason =>
    let (arrives, ch) := c.channel.serverBreak reason
    ⟨ch, c.past ++ [pushed (.failure reason) arrives] ++ [serverClosed]⟩
  | .serverClose => ⟨c.channel.serverClose, c.past ++ [serverClosed]⟩
  | .serverLeave => ⟨c.channel.serverLeave, c.past ++ [serverLeft]⟩
  | .serverReceive =>
    let (r, ch) := c.channel.serverReceive
    ⟨ch, c.past ++ [serverReceived r]⟩
  | .clientSend s =>
    match c.channel.clientSend s with
    | .ok ch => ⟨ch, c.past ++ [clientSent s true]⟩
    | .error _ => ⟨c.channel, c.past ++ [clientSent s false]⟩
  | .clientReceive =>
    let (r, ch) := c.channel.clientReceive
    ⟨ch, c.past ++ [clientReceived r]⟩
  | .clientClose => ⟨c.channel.clientClose, c.past ++ [clientClosed]⟩

/-- A channel that was opened for a task, after some moves. -/
def run (taskId : String) (ms : List ChannelMove) : ChannelCourse :=
  ms.foldl step ⟨.opened taskId, []⟩

/-- One move keeps the channel and its record in step. -/
theorem tells_step {c : ChannelCourse} (h : c.channel.Tells c.past) (m : ChannelMove) :
    (c.step m).channel.Tells (c.step m).past := by
  cases m with
  | push f => exact h.serverSend f
  | post m => exact h.serverSend (.text m.text)
  | fail reason => exact (h.serverSend (.failure reason)).serverClose
  | serverClose => exact h.serverClose
  | serverLeave => exact h.serverLeave
  | serverReceive => exact h.serverReceive
  | clientSend s =>
    rw [step]
    split
    · next hsend => exact h.clientSend_ok hsend
    · next hsend => exact h.clientSend_error hsend
  | clientReceive => exact h.clientReceive
  | clientClose => exact h.clientClose

/-- A channel and its record are in step after any moves. -/
theorem tells_run (taskId : String) (ms : List ChannelMove) :
    (run taskId ms).channel.Tells (run taskId ms).past := by
  induction ms using List.reverseRecOn with
  | nil => exact .opened taskId
  | append_singleton ms m ih =>
    rw [run, List.foldl_concat]
    exact tells_step ih m

/-- **Both lines of a channel deliver,** whoever closes what and when. -/
theorem delivers_both_ways (taskId : String) (ms : List ChannelMove) :
    LineRecord.Delivers (clientLine (run taskId ms).past) ∧
      LineRecord.Delivers (serverLine (run taskId ms).past) :=
  ⟨(tells_run taskId ms).client.delivers, (tells_run taskId ms).server.delivers⟩

end ChannelCourse

end GraphSession
