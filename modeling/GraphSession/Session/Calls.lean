import GraphSession.Session.Access
import GraphSession.Session.Sync
import GraphSession.Task.Calls

/-!
# Calls on a session

All that can be in flight on one session: syncs, cancellations, calls about tasks that go to the
task desk directly, and access to files and outputs.

A cancellation ends the task in the slot and waits until it has ended; then no sync counts as under
way. It does not wait for the lock.
-/

namespace GraphSession

/-- Where a call on a session has got to. -/
inductive SessionCall where
  | sync (stage : SyncStage)
  | cancel
  | awaitEnd (ticket : Nat)
  | task (c : TaskCall)
  | access (a : Access)

/-- What a call on a session comes to. -/
inductive SessionResult where
  | synced (r : Except Failure Unit)
  | cancelled
  | task (r : TaskResult)
  | access (r : AccessResult)

/-- A turn of a call on a session. -/
abbrev SessionTurn := Turn Session SessionCall SessionResult

namespace SessionCall

/-- The end of a cancellation. -/
def endCancel (s : Session) : SessionTurn :=
  .ends (s.onStatus fun t ↦ { t with syncing := false }) .cancelled

/-- A cancellation tells the task in the slot to end and waits for that, or is over if there is
none. -/
def turnCancel (s : Session) : SessionTurn :=
  match s.desk.signalCancel with
  | (none, _) => endCancel s
  | (some ticket, desk) => .moves { s with desk := desk } (.awaitEnd ticket)

/-- A turn of a call, which is that of the part of the session it is about. -/
def turn (s : Session) : SessionCall → SessionTurn
  | sync stage => (stage.turn s).map id .sync .synced
  | cancel => turnCancel s
  | awaitEnd ticket => if s.desk.isClosed ticket then endCancel s else .waits
  | task c => (c.turn s.desk).map (fun d ↦ { s with desk := d }) .task .task
  | access a => (a.turn s).map id .access .access

/-- What a call waits for from outside. -/
def question? : SessionCall → Option (Question SessionCall)
  | sync stage => stage.question?.map fun q ↦ q.map .sync
  | access a => a.question?.map fun q ↦ q.map .access
  | _ => none

/-- Gives up a call. A cancellation or an access holds nothing that would have to be given back. -/
def abandon (s : Session) : SessionCall → Session
  | sync stage => stage.abandon s
  | task c => s.onDesk fun d ↦ c.abandon d
  | cancel | awaitEnd _ | access _ => s

end SessionCall

end GraphSession
