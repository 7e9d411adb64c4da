import GraphSession.Channel.Pipe

/-!
# Opening channels

Channels are numbered in the order they are opened, and the server takes them in that order. The
next opening can be refused; the one after it succeeds again. An opening goes through at once,
unless openings are held up: then whoever opens a channel has to wait.
-/

namespace GraphSession

/-- All channels that the client has opened, in that order, and how the server treats openings. -/
structure Connector where
  channels : List Channel
  /-- How many of them the server has taken. -/
  accepted : Nat
  refusing : Bool
  /-- Whether openings have to wait. -/
  heldUp : Bool
  deriving DecidableEq

namespace Connector

/-- No channel is open, and openings are neither refused nor held up. -/
def empty : Connector := ⟨[], 0, false, false⟩

/-- Inhabited by the connector without channels. -/
instance : Inhabited Connector := ⟨empty⟩

/-- The next opening fails. -/
def refuseNext (c : Connector) : Connector := { c with refusing := true }

/-- Holds openings up, or lets them go on. -/
def holdUp (c : Connector) (b : Bool) : Connector := { c with heldUp := b }

/-- The failure of an opening that is refused. -/
def refusal (taskId : String) : Failure :=
  .transport (.request ("connection to task " ++ taskId ++ " refused"))

/-- Opens the channel of a task: its number, if it is not refused. -/
def openFor (c : Connector) (taskId : String) : Except Failure Nat × Connector :=
  if c.refusing then (.error (refusal taskId), { c with refusing := false })
  else (.ok c.channels.length, { c with channels := c.channels ++ [.opened taskId] })

/-- The server takes the next channel, if there is one. -/
def accept? (c : Connector) : Option (Nat × String × Connector) :=
  match c.channels[c.accepted]? with
  | none => none
  | some ch => some (c.accepted, ch.taskId, { c with accepted := c.accepted + 1 })

/-- The channel that was opened as the one of that number. -/
def channel? (c : Connector) (n : Nat) : Option Channel := c.channels[n]?

/-- The channel of that number, if the server has taken it. -/
def accepted? (c : Connector) (n : Nat) : Option Channel :=
  if n < c.accepted then c.channel? n else none

/-- Puts a channel in the place of the one of that number. -/
def setChannel (c : Connector) (n : Nat) (ch : Channel) : Connector :=
  { c with channels := c.channels.set n ch }

/-- Changes the channel of that number. -/
def onChannel (c : Connector) (n : Nat) (f : Channel → Channel) : Connector :=
  { c with channels := c.channels.modify n f }

/-- How many frames clients have not taken yet. -/
def undelivered (c : Connector) : Nat :=
  c.channels.foldr (fun ch n ↦ ch.toClient.length + n) 0

end Connector

end GraphSession
