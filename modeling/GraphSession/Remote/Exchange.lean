import GraphSession.Remote.Call
import GraphSession.Settings.Basic

/-!
# Exchanges with the backend

A call becomes a request to an address under the base address of the backend, and the response
becomes the answer of the call.

**Addresses are texts first.** The base address without the slashes at its end, a slash and the path
of the endpoint are put together as text and read as one URL. What reading a URL does to a path it
does here as well.

**Responses.** A status outside of 200 to 299 is a failure of the backend, told with the body as far
as it can be read. Otherwise the body is the answer, or is not looked at by calls that answer
nothing. A response that breaks off is as bad as none.
-/

namespace GraphSession

/-- A request as it goes out. -/
structure HttpRequest where
  method : HttpMethod
  url : Url
  authorization : Option String
  contentType : Option String
  body : List UInt8

/-- A response as it comes in. -/
structure HttpResponse where
  status : Nat
  contentType : Option String
  /-- None, if it broke off. -/
  body : Option (List UInt8)

namespace HttpResponse

/-- The status is one of those that stand for success. -/
def isSuccess (r : HttpResponse) : Bool := 200 ≤ r.status && r.status < 300

/-- The failure of a response that is no success. -/
def failure (r : HttpResponse) : Failure :=
  .api r.status (String.ofList (Utf8.decodeLossy (r.body.getD [])))

/-- Whether the response says that its body is a document. -/
def isDocument (r : HttpResponse) : Bool :=
  match r.contentType with
  | some t => "application/json".toList.isPrefixOf t.toList
  | none => false

/-- The failure of a response that broke off. -/
def brokenOff : Failure := .transport (.request "response broke off")

/-- All bytes of a body, unless it broke off. -/
def wholeBody (r : HttpResponse) : Except Failure (List UInt8) :=
  match r.body with
  | some bs => .ok bs
  | none => .error brokenOff

end HttpResponse

/-- A value read from the bytes of a document. -/
def readDocument {α : Type} (d : Decoder α) (bs : List UInt8) : Except Failure α :=
  match (Utf8.decode? bs).bind fun cs ↦ Tree.ofText? (String.ofList cs) with
  | none => .error .serialization
  | some t =>
    match d t with
    | .ok a => .ok a
    | .error _ => .error .serialization

namespace RemoteCall

/-- An address without the slashes at its end. -/
def withoutSlashes (base : String) : String :=
  String.ofList (base.toList.reverse.dropWhile fun c ↦ c = '/').reverse

/-- The text of the address of a call. -/
def addressText (base : String) (c : RemoteCall) : String := withoutSlashes base ++ "/" ++ c.path

/-- Whether a text may stand in a header: no control characters but the tab. -/
def fitsHeader (s : String) : Bool := s.toList.all fun c ↦ c = '\t' || (' ' ≤ c && c.toNat ≠ 127)

/-- Whether requests can be sent to an address. -/
def isReachable (u : Url) : Bool := u.scheme = "http" || u.scheme = "https"

/-- The failure of a request that cannot be sent. -/
def unsent (reason : String) : Failure := .transport (.request reason)

/-- The request of a call, with a token if there is one. -/
def request (base : String) (token : Option String) (c : RemoteCall) :
    Except Failure HttpRequest :=
  match Url.ofText (addressText base c) with
  | .error e => .error (unsent e.message)
  | .ok url =>
    let authorization := token.map fun t ↦ "Bearer " ++ t
    if !isReachable url then .error (unsent "no address of the web")
    else if authorization.all fitsHeader then
      .ok ⟨c.method, url, authorization, c.payload.contentType?, c.payload.bytes⟩
    else .error (unsent "token is no header value")

/-- The answer in a response that is a success. -/
def answer (r : HttpResponse) : (c : RemoteCall) → Except Failure c.Answer
  | submit _ => r.wholeBody.bind (readDocument SubmitReply.decode)
  | listProjects => r.wholeBody.bind (readDocument (Tree.list ProjectSummary.decode))
  | fetchProject _ => r.wholeBody.bind (readDocument Project.decode)
  | createProject _ => r.wholeBody.bind (readDocument Project.decode)
  | deleteProject _ => .ok ()
  | renameProject _ _ => .ok ()
  | deleteFile _ => .ok ()
  | listFiles => r.wholeBody.bind (readDocument (Tree.list FileRef.decode))
  | upload _ _ _ _ => r.wholeBody.bind (readDocument FileRef.decode)
  | content _ =>
    r.wholeBody.bind fun bs ↦
      if r.isDocument then (readDocument Tree.freeForm bs).map .structured else .ok (.bytes bs)
  | view _ => r.wholeBody.bind (readDocument OutputView.decode)

/-- The answer in a response. -/
def answerIn (c : RemoteCall) (r : HttpResponse) : Except Failure c.Answer :=
  if r.isSuccess then c.answer r else .error r.failure

/-- A call with its request sent by `send`, which fails with a reason when there is no response. The
token comes first, and without it nothing is sent. -/
def perform (base : String) (token : Except Failure (Option String)) (c : RemoteCall)
    (send : HttpRequest → Except String HttpResponse) : Except Failure c.Answer :=
  match token with
  | .error e => .error e
  | .ok token =>
    match request base token c with
    | .error e => .error e
    | .ok q =>
      match send q with
      | .error reason => .error (unsent reason)
      | .ok r => c.answerIn r

end RemoteCall

end GraphSession
