/-!
# Turns

Calls in flight share a state and take turns. A turn runs a call from where it is to the next place
where it may have to wait; what other calls do in between is free. So a call is a value of its own,
the place it has reached, and a turn is a function of the shared state and that value.
-/

namespace GraphSession

/-- What a call does when it is its turn. -/
inductive Turn (σ κ ρ : Type) where
  /-- It has to wait and changes nothing. -/
  | waits
  /-- It goes on to another place. -/
  | moves (shared : σ) (call : κ)
  /-- It returns. -/
  | ends (shared : σ) (result : ρ)

/-- Calls of a kind: their turns, and what becomes of the shared state when one is given up. -/
structure Machine (σ κ ρ : Type) where
  turn : σ → κ → Turn σ κ ρ
  abandon : σ → κ → σ

namespace Turn

variable {σ σ' κ κ' ρ ρ' : Type}

/-- The call has to wait, so a turn would be for nothing. -/
def isWaiting : Turn σ κ ρ → Bool
  | waits => true
  | _ => false

/-- The same turn of a call that is part of something larger. -/
def map (s : σ → σ') (c : κ → κ') (r : ρ → ρ') : Turn σ κ ρ → Turn σ' κ' ρ'
  | waits => waits
  | moves x k => moves (s x) (c k)
  | ends x y => ends (s x) (r y)

end Turn

end GraphSession
