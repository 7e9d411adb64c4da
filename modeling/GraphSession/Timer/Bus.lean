import GraphSession.Timer.Event

/-!
# The timer bus

Listeners subscribe to timer events and are called in the order of subscription. A listener may
unsubscribe others, or itself, while it is called.

**A delivery goes to those who were there.** Publishing takes the list of listeners once and calls
each of them, also one that an earlier call of the same delivery has just unsubscribed; the next
event no longer reaches it.

Subscriptions are numbered in the order they are made. The type keeps the numbers ascending and
below the next one, so no number is given twice.
-/

namespace GraphSession

/-- A subscription, with the subscriptions it ends whenever it is called. -/
structure Listener where
  id : Nat
  drops : TimerEvent → List Nat

/-- The listeners in the order of subscription, and the next number. -/
structure TimerBus where
  listeners : List Listener
  next : Nat
  ascending : (listeners.map Listener.id).Pairwise (· < ·)
  fresh : ∀ l ∈ listeners, l.id < next

/-- An event that reached a subscription. -/
structure Delivery where
  subscription : Nat
  event : TimerEvent
  deriving DecidableEq

namespace TimerBus

/-- Nobody listens, and no id was given out. -/
def empty : TimerBus := ⟨[], 0, by simp, by simp⟩

/-- Inhabited by the bus without listeners. -/
instance : Inhabited TimerBus := ⟨empty⟩

/-- How many listen. -/
def listenerCount (b : TimerBus) : Nat := b.listeners.length

/-- Whether the listener of that id still listens. -/
def isSubscribed (b : TimerBus) (id : Nat) : Bool := b.listeners.any fun l ↦ l.id = id

/-- Adds a listener under the next number. -/
def subscribe (b : TimerBus) (drops : TimerEvent → List Nat) : TimerBus where
  listeners := b.listeners ++ [⟨b.next, drops⟩]
  next := b.next + 1
  ascending := by
    rw [List.map_append, List.pairwise_append]
    refine ⟨b.ascending, by simp, ?_⟩
    intro m hm n hn
    obtain ⟨l, hl, rfl⟩ := List.mem_map.1 hm
    simp only [List.map_cons, List.map_nil, List.mem_singleton] at hn
    exact hn ▸ b.fresh l hl
  fresh := by
    intro l hl
    rcases List.mem_append.1 hl with h | h
    · exact Nat.lt_succ_of_lt (b.fresh l h)
    · rw [List.mem_singleton.1 h]
      exact Nat.lt_succ_self _

/-- Ends a subscription; nothing happens when there is none of that number. -/
def unsubscribe (b : TimerBus) (id : Nat) : TimerBus where
  listeners := b.listeners.filter fun l ↦ l.id ≠ id
  next := b.next
  ascending := List.Pairwise.sublist (List.filter_sublist.map _) b.ascending
  fresh := fun l hl ↦ b.fresh l (List.mem_filter.1 hl).1

/-- Ends a subscription for somebody who wants to know whether there was one: it shows in the number
of listeners. -/
def endSubscription (b : TimerBus) (id : Nat) : Bool × TimerBus :=
  let left := b.unsubscribe id
  (left.listenerCount != b.listenerCount, left)

/-- Removes the listeners of some ids, those that are still there. -/
def unsubscribeAll (b : TimerBus) (ids : List Nat) : TimerBus := ids.foldl unsubscribe b

/-- Calls the given listeners with an event. -/
def deliver (b : TimerBus) (e : TimerEvent) (called : List Listener) : TimerBus :=
  called.foldl (fun b l ↦ b.unsubscribeAll (l.drops e)) b

/-- Delivers an event to the listeners that are there. -/
def publish (b : TimerBus) (e : TimerEvent) : TimerBus × List Delivery :=
  (b.deliver e b.listeners, b.listeners.map fun l ↦ ⟨l.id, e⟩)

/-- Delivers events one after the other. -/
def publishAll (b : TimerBus) : List TimerEvent → TimerBus × List Delivery
  | [] => (b, [])
  | e :: rest =>
    let first := b.publish e
    let others := first.1.publishAll rest
    (others.1, first.2 ++ others.2)

end TimerBus

end GraphSession
