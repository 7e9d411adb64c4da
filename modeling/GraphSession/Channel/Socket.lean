import GraphSession.Channel.Pipe
import GraphSession.Remote.TaskAddress
import GraphSession.Text.Utf8

/-!
# Channels over sockets

The client's side of a task channel on a web socket. Frames of bytes count as text if they are
UTF-8, and pings and pongs are passed over. The channel ends with a closing frame, or breaks with an
error; either way the client is not connected afterwards, and finds the channel closed from then on.
-/

namespace GraphSession

/-- What arrives on a socket. -/
inductive SocketFrame where
  | text (s : String)
  | binary (bytes : List UInt8)
  | ping
  | pong
  | close
  /-- The connection breaks. -/
  | failure (reason : String)
  deriving DecidableEq

/-- What a client sends on a socket. -/
inductive SocketPost where
  | text (s : String)
  | close
  deriving DecidableEq

/-- One side of a channel as the network sees it: what has arrived, and what was sent. -/
structure Socket where
  /-- What has arrived and was not taken yet. -/
  incoming : List SocketFrame
  sent : List SocketPost
  connected : Bool
  /-- Whether the channel is over for good. -/
  ended : Bool
  deriving DecidableEq

namespace Socket

/-- A socket that was just opened. -/
def opened : Socket := ⟨[], [], true, false⟩

/-- How the client's side is called. -/
def transport : String := "websocket"

/-- The frame that some bytes are. -/
def textOfBytes (bytes : List UInt8) : Except Failure String :=
  match Utf8.decode? bytes with
  | some cs => .ok (String.ofList cs)
  | none => .error (.transport (.invalidMessage "frame is not UTF-8"))

/-- The next frame, what is left after it and whether the channel is over. -/
def take : List SocketFrame → Received (Except Failure String) × List SocketFrame × Bool
  | [] => (.pending, [], false)
  | .text s :: rest => (.frame (.ok s), rest, false)
  | .binary bytes :: rest => (.frame (textOfBytes bytes), rest, false)
  | .ping :: rest => take rest
  | .pong :: rest => take rest
  | .close :: _ => (.closed, [], true)
  | .failure reason :: _ => (.frame (.error (.transport (.webSocket reason))), [], true)

/-- Takes the next message off the socket. Once the channel is over it stays over, and the socket
counts as disconnected. -/
def receive (s : Socket) : Received (Except Failure String) × Socket :=
  if s.ended then (.closed, { s with connected := false })
  else
    let (r, rest, ended) := take s.incoming
    (r, { s with incoming := rest, ended := ended, connected := s.connected && !ended })

/-- Sends a text, which fails if the socket is not connected. -/
def send (s : Socket) (text : String) : Except Failure Socket :=
  if s.connected then .ok { s with sent := s.sent ++ [.text text] }
  else .error (.transport .connectionClosed)

/-- Tells the other side that the channel is closed, once. -/
def close (s : Socket) : Socket :=
  if s.connected then { s with sent := s.sent ++ [.close], connected := false } else s

/-- Opens the channel of a task by `dial`, which fails with a reason. The token comes first. -/
def openFor (endpoint : Url) (token : Except Failure (Option String)) (taskId : String)
    (dial : Url → Except String Unit) : Except Failure Socket :=
  match token with
  | .error e => .error e
  | .ok token =>
    match taskAddress endpoint taskId token with
    | .error e => .error e
    | .ok address =>
      match dial address with
      | .error reason => .error (.transport (.webSocket reason))
      | .ok _ => .ok opened

end Socket

end GraphSession
