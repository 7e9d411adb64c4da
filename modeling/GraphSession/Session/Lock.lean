/-!
# Locks

A lock is a line of tickets, and the first of the line holds it. Whoever wants the lock joins the
line at the end; whoever is done with it, or no longer wants it, leaves the line wherever he stands.

**No gap.** Since the holder is the head of the line, leaving hands the lock over to the next at
once: nobody can get in between, and a lock that somebody waits for is never free.
-/

namespace GraphSession

/-- The tickets of those who wait for the lock, the first of whom holds it. -/
structure Lock where
  line : List Nat
  /-- The next ticket. -/
  tickets : Nat
  deriving DecidableEq

namespace Lock

/-- Nobody holds the lock, and no ticket was given out. -/
def free : Lock := ⟨[], 0⟩

/-- Inhabited by the free lock. -/
instance : Inhabited Lock := ⟨free⟩

/-- Joins the line: the ticket, and the lock. -/
def join (l : Lock) : Nat × Lock := (l.tickets, ⟨l.line ++ [l.tickets], l.tickets + 1⟩)

/-- Whether a ticket holds the lock. -/
def isHeldBy (l : Lock) (ticket : Nat) : Bool := l.line.head? = some ticket

/-- Leaves the line. -/
def leave (l : Lock) (ticket : Nat) : Lock := { l with line := l.line.erase ticket }

end Lock

end GraphSession
