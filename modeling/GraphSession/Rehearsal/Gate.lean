/-!
# Gates

A gate lets through one caller for each opening, in the order in which they came. An opening that
finds nobody waiting is kept for the next who comes, but no more than one is kept.
-/

namespace GraphSession

/-- A gate: whether an opening is kept, who waits, and who was called. -/
structure Gate where
  /-- Whether an opening is kept. -/
  kept : Bool
  waiting : List Nat
  /-- Those who may go through and have not yet. -/
  called : List Nat
  deriving DecidableEq

namespace Gate

/-- A gate at which nobody waits and no opening is kept. -/
def closed : Gate := ⟨false, [], []⟩

/-- Inhabited by the closed gate. -/
instance : Inhabited Gate := ⟨closed⟩

/-- One opening. -/
def opened (g : Gate) : Gate :=
  match g.waiting with
  | [] => { g with kept := true }
  | t :: rest => { g with waiting := rest, called := g.called ++ [t] }

/-- Somebody comes to the gate. -/
def arrive (g : Gate) (ticket : Nat) : Gate :=
  if g.kept then { g with kept := false, called := g.called ++ [ticket] }
  else { g with waiting := g.waiting ++ [ticket] }

/-- Whether somebody may go through. -/
def lets (g : Gate) (ticket : Nat) : Bool := g.called.contains ticket

/-- Somebody goes through. -/
def pass (g : Gate) (ticket : Nat) : Gate := { g with called := g.called.erase ticket }

/-- Somebody goes away, and an opening that was for him is for the next. -/
def leave (g : Gate) (ticket : Nat) : Gate :=
  if g.lets ticket then (g.pass ticket).opened
  else { g with waiting := g.waiting.erase ticket }

end Gate

/-- Gates by name; all are there, and closed at first. -/
structure Gates where
  gates : List (String × Gate)
  /-- The next ticket. -/
  tickets : Nat

namespace Gates

/-- All gates are closed, and nobody has come yet. -/
def closed : Gates := ⟨[], 0⟩

/-- The gate of a name, which is closed if nothing has happened to it. -/
def named (g : Gates) (name : String) : Gate := (g.gates.lookup name).getD .closed

/-- Changes the gate of a name. -/
def modify (g : Gates) (name : String) (f : Gate → Gate) : Gates :=
  { g with gates := (name, f (g.named name)) :: g.gates.filter fun e ↦ e.1 ≠ name }

/-- Somebody comes to a gate, and gets a ticket. -/
def arrive (g : Gates) (name : String) : Nat × Gates :=
  (g.tickets, { g.modify name fun gate ↦ gate.arrive g.tickets with tickets := g.tickets + 1 })

end Gates

end GraphSession
