import GraphSession.Schedule.Turn

/-!
# Calls in flight

A flight holds the shared state, the callers that have not returned and a queue of those whose turn
comes next. It is one of the orders in which turns may be taken (`TaskCourse.exists_rehearsed`,
`Course.exists_rehearsed`), and a fair one (`Flight.waits_of_settle`).

**Who goes next.** The first of the queue takes turns until it has to wait or returns, and leaves
the queue then. After each of its turns the callers that can go on and are not in the queue yet join
it at the end, in the order in which they were made. So nobody who can go on is passed over, and
nobody is interrupted between two turns by a caller that came later.
-/

namespace GraphSession

/-- A call that has not returned, by the number it got when it was made and the label it was
given. -/
structure Caller (κ : Type) where
  ticket : Nat
  label : String
  call : κ

/-- The calls in flight. -/
structure Flight (σ κ ρ : Type) where
  shared : σ
  /-- In the order in which they were made. -/
  callers : List (Caller κ)
  /-- The tickets of those whose turn comes next. -/
  queue : List Nat
  /-- The labels of all calls that were made; the place of a label is the ticket of its call. -/
  made : List String
  /-- What the calls returned, by label and in the order they did. -/
  returned : List (String × ρ)

namespace Flight

variable {σ κ ρ : Type}

/-- No call is in flight, and none was made. -/
def start (shared : σ) : Flight σ κ ρ := ⟨shared, [], [], [], []⟩

/-- Who has a ticket, if that call has not returned. -/
def caller? (f : Flight σ κ ρ) (ticket : Nat) : Option (Caller κ) :=
  f.callers.find? fun c ↦ c.ticket = ticket

/-- Changes the shared state from outside of all calls. -/
def change (f : Flight σ κ ρ) (g : σ → σ) : Flight σ κ ρ := { f with shared := g f.shared }

/-- Makes a call, whose turn comes after those of the queue. -/
def launch (f : Flight σ κ ρ) (label : String) (call : κ) : Flight σ κ ρ :=
  { f with
    callers := f.callers ++ [⟨f.made.length, label, call⟩]
    queue := f.queue ++ [f.made.length]
    made := f.made ++ [label] }

/-- Whether a caller is out of the queue although it can go on. -/
def isRoused (m : Machine σ κ ρ) (f : Flight σ κ ρ) (c : Caller κ) : Bool :=
  !f.queue.contains c.ticket && !(m.turn f.shared c.call).isWaiting

/-- The callers that can go on join the queue. -/
def rouse (m : Machine σ κ ρ) (f : Flight σ κ ρ) : Flight σ κ ρ :=
  { f with queue := f.queue ++ (f.callers.filter (isRoused m f)).map Caller.ticket }

/-- A caller has got to another place. -/
def replace (f : Flight σ κ ρ) (ticket : Nat) (call : κ) : Flight σ κ ρ :=
  { f with
    callers := f.callers.map fun c ↦ if c.ticket = ticket then { c with call := call } else c }

/-- A caller is no longer in flight. -/
def remove (f : Flight σ κ ρ) (ticket : Nat) : Flight σ κ ρ :=
  { f with
    callers := f.callers.filter fun c ↦ c.ticket ≠ ticket
    queue := f.queue.filter fun t ↦ t ≠ ticket }

/-- One turn of a caller. -/
def takeTurn (m : Machine σ κ ρ) (f : Flight σ κ ρ) (c : Caller κ) : Flight σ κ ρ :=
  match m.turn f.shared c.call with
  | .waits => { f with queue := f.queue.filter fun t ↦ t ≠ c.ticket }
  | .moves shared call => rouse m { f.replace c.ticket call with shared := shared }
  | .ends shared result =>
    rouse m
      { f.remove c.ticket with
        shared := shared
        returned := f.returned ++ [(c.label, result)] }

/-- One turn of the first of the queue, if there is one. -/
def next? (m : Machine σ κ ρ) (f : Flight σ κ ρ) : Option (Flight σ κ ρ) :=
  match f.queue with
  | [] => none
  | t :: rest =>
    match f.caller? t with
    | none => some { f with queue := rest }
    | some c => some (takeTurn m f c)

/-- At most `n` turns, until the queue is empty. -/
def run (m : Machine σ κ ρ) : Nat → Flight σ κ ρ → Flight σ κ ρ
  | 0, f => f
  | n + 1, f =>
    match next? m f with
    | none => f
    | some f' => run m n f'

/-- At most `n` turns, of whoever can go on. -/
def settle (m : Machine σ κ ρ) (n : Nat) (f : Flight σ κ ρ) : Flight σ κ ρ := run m n (rouse m f)

/-- The call of that label that was made last, if it is still in flight. -/
def lastCaller? (f : Flight σ κ ρ) (label : String) : Option (Caller κ) :=
  let later := f.made.reverse.takeWhile fun l ↦ l ≠ label
  f.callers.find? fun c ↦ c.ticket + later.length + 1 = f.made.length

/-- Gives up the call of that label that was made last: whether it was still in flight. -/
def giveUp (m : Machine σ κ ρ) (f : Flight σ κ ρ) (label : String) : Bool × Flight σ κ ρ :=
  match f.lastCaller? label with
  | none => (false, f)
  | some c => (true, { f.remove c.ticket with shared := m.abandon f.shared c.call })

end Flight

end GraphSession
