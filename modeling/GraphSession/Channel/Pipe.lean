import GraphSession.Failure.Basic

/-!
# Channels in memory

A channel joins a client, who follows a task, and a server, who runs it. Each side has a queue of
what the other sent and has not been taken yet.

**Two ends, each closed on its own.** What the server pushes arrives as long as neither side has
closed; what is in the queue stays there, so the client takes every frame that arrived before it
learns that the channel is closed. A failure is a frame too, the last one of its channel.

A side may also leave, which closes its end. A server that has only closed still listens to its
client; one that has left does not, and the client is told so when it sends.
-/

namespace GraphSession

/-- What a server pushes. -/
inductive ServerFrame where
  | text (s : String)
  | failure (reason : String)
  deriving DecidableEq

/-- A channel between the client and the server of one task: what either side has sent and the other
has not taken, and who has closed it. -/
structure Channel where
  taskId : String
  /-- What the client has not taken yet. -/
  toClient : List ServerFrame
  /-- What the server has not taken yet. -/
  toServer : List String
  serverOpen : Bool
  clientOpen : Bool
  /-- What the client has learnt of the channel. -/
  connected : Bool
  /-- Whether there is a server that listens. -/
  listening : Bool
  deriving DecidableEq

/-- What a side finds when it looks for a frame. -/
inductive Received (α : Type) where
  | frame (a : α)
  | closed
  | pending
  deriving DecidableEq

namespace Channel

/-- A channel that was just opened: nothing is on its way, and both sides are there. -/
def opened (taskId : String) : Channel := ⟨taskId, [], [], true, true, true, true⟩

/-- Whether a frame of the server arrives. -/
def arrives (c : Channel) : Bool := c.serverOpen && c.clientOpen

/-- The server pushes a frame. -/
def push (c : Channel) (f : ServerFrame) : Channel :=
  if c.arrives then { c with toClient := c.toClient ++ [f] } else c

/-- The server pushes a frame, and is told whether it arrives. -/
def serverSend (c : Channel) (f : ServerFrame) : Bool × Channel := (c.arrives, c.push f)

/-- The server closes its side; what it has sent before can still be taken. -/
def serverClose (c : Channel) : Channel := { c with serverOpen := false }

/-- The server breaks the channel. -/
def serverFail (c : Channel) (reason : String) : Channel := (c.push (.failure reason)).serverClose

/-- The server breaks the channel, and is told whether the client will learn why. -/
def serverBreak (c : Channel) (reason : String) : Bool × Channel :=
  ((c.serverSend (.failure reason)).1, c.serverFail reason)

/-- The server gives its end up. -/
def serverLeave (c : Channel) : Channel := { c.serverClose with listening := false }

/-- The server looks for a frame. -/
def serverReceive (c : Channel) : Received String × Channel :=
  match c.toServer with
  | s :: rest => (.frame s, { c with toServer := rest })
  | [] => (if c.clientOpen then .pending else .closed, c)

/-- The client sends a frame. -/
def clientSend (c : Channel) (s : String) : Except Failure Channel :=
  if c.clientOpen && c.listening then .ok { c with toServer := c.toServer ++ [s] }
  else .error (.transport .connectionClosed)

/-- The client looks for a frame; a failure frame is an error. -/
def clientReceive (c : Channel) : Received (Except Failure String) × Channel :=
  match c.toClient with
  | .text s :: rest => (.frame (.ok s), { c with toClient := rest })
  | .failure reason :: rest =>
    (.frame (.error (.transport (.request reason))),
      { c with toClient := rest, connected := false })
  | [] =>
    if c.arrives then (.pending, c) else (.closed, { c with connected := false })

/-- The client closes its end, or gives it up. -/
def clientClose (c : Channel) : Channel := { c with clientOpen := false, connected := false }

/-- How the client's side is called. -/
def transport : String := "memory"

end Channel

end GraphSession
