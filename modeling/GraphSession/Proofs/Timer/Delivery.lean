import Mathlib.Data.List.Induction
import GraphSession.Proofs.Schedule.Moments
import GraphSession.Timer.Watch

/-!
# Who is told of an event

A bus goes through a list of moves (`BusCourse.run`), and what happens to it on the way is written
down: subscriptions, requests to end one with their answers, events, and calls of listeners
(`BusRecord`). What a listener ends while it is called stands right after its call, before the call
of the next one.

**Live is a matter of the record.** A subscription is live as long as nobody has asked to end it
(`BusRecord.live`), and a bus has the live subscriptions as its listeners, at every moment of a
delivery (`TimerBus.Tells`). So what an answer says, and whom an event reaches, can be told from
what was written down before.

**Listeners may be of any kind.** What a listener ends may depend on all that has happened, so
between two moves listeners may be given anything else to do (`BusMove.instruct`). Within one move
no event comes twice, so there it is enough that what they do depends on the event.
-/

namespace GraphSession

/-- What can be told of a bus. -/
inductive BusRecord where
  | subscribed (id : Nat)
  /-- Somebody asks to end a subscription and is told whether there was one. -/
  | ended (id : Nat) (found : Bool)
  /-- The publishing of an event starts. -/
  | published (e : TimerEvent)
  /-- A listener is called. -/
  | called (d : Delivery)
  deriving DecidableEq

namespace BusRecord

/-- Whether it is a request to end that subscription. -/
def ends (id : Nat) : BusRecord → Bool
  | ended k _ => k = id
  | subscribed _ | published _ | called _ => false

/-- The subscriptions that nobody has asked to end since they were made, in the order in which they
were made. -/
def live : List BusRecord → List Nat
  | [] => []
  | subscribed id :: rest => if rest.any (ends id) then live rest else id :: live rest
  | _ :: rest => live rest

/-- All subscriptions, in the order in which they were made. -/
def made : List BusRecord → List Nat :=
  List.filterMap fun
    | subscribed id => some id
    | ended _ _ | published _ | called _ => none

/-- All calls. -/
def calls : List BusRecord → List Delivery :=
  List.filterMap fun
    | called d => some d
    | subscribed _ | ended _ _ | published _ => none

/-- The calls up to the next event. -/
def callsNow : List BusRecord → List Delivery
  | [] | published _ :: _ => []
  | called d :: rest => d :: callsNow rest
  | subscribed _ :: rest | ended _ _ :: rest => callsNow rest

variable {past rest : List BusRecord} {id k : Nat} {found : Bool} {e : TimerEvent}

/-! ### Live subscriptions -/

/-- What is live in the end was made later, or was live before and has not been ended since. -/
theorem mem_live_append :
    id ∈ live (past ++ rest) ↔ id ∈ live rest ∨ id ∈ live past ∧ rest.any (ends id) = false := by
  induction past with
  | nil => simp [live]
  | cons r past ih =>
    cases r with
    | subscribed k =>
      rw [List.cons_append, live, live, List.any_append]
      by_cases hk : id = k
      · subst hk
        cases hrest : rest.any (ends id) <;> rw [hrest] at ih <;> cases past.any (ends id)
          <;> simp [ih]
      · split_ifs <;> simp [ih, hk]
    | ended k found | published e | called d => exact ih

/-- What is written down may end a subscription, and may begin one. -/
theorem live_concat (past : List BusRecord) (r : BusRecord) :
    live (past ++ [r]) = ((live past).filter fun k ↦ !ends k r) ++ made [r] := by
  induction past with
  | nil => cases r <;> rfl
  | cons q past ih =>
    cases q with
    | subscribed k =>
      rw [List.cons_append, live, live, List.any_append, List.any_cons, List.any_nil, Bool.or_false,
        ih]
      cases past.any (ends k) <;> cases hr : ends k r <;> simp [hr]
    | ended k found | published e | called d => exact ih

/-- The live subscriptions are among those that were made, in the same order. -/
theorem live_sublist_made (past : List BusRecord) : (live past).Sublist (made past) := by
  induction past with
  | nil => exact .slnil
  | cons r past ih =>
    cases r with
    | subscribed k =>
      simp only [live, made]
      split_ifs
      · exact ih.cons k
      · exact ih.cons_cons k
    | ended k found | published e | called d => exact ih

theorem mem_made_of_mem_live (h : id ∈ live past) : id ∈ made past :=
  (live_sublist_made past).subset h

/-- After a request to end it a subscription is live only if it is made later. -/
theorem mem_made_of_ended (h : id ∈ live (past ++ ended id found :: rest)) : id ∈ made rest := by
  rcases mem_live_append.1 h with hrest | ⟨-, hnot⟩
  · exact (mem_made_of_mem_live hrest : id ∈ made rest)
  · rw [List.any_cons, ends, decide_eq_true rfl] at hnot
    cases hnot

theorem made_append (past rest : List BusRecord) : made (past ++ rest) = made past ++ made rest :=
  List.filterMap_append

theorem calls_append (past rest : List BusRecord) :
    calls (past ++ rest) = calls past ++ calls rest :=
  List.filterMap_append

/-! ### What the record of a bus is like -/

/-- When nobody is called any more, the calls up to the next event are those from before. -/
theorem callsNow_append (h : callsNow rest = []) : callsNow (past ++ rest) = callsNow past := by
  induction past with
  | nil => exact h
  | cons r past ih =>
    cases r with
    | called d => exact congrArg (d :: ·) ih
    | published e => rfl
    | subscribed k | ended k found => exact ih

/-- Every event reaches those who are live when its publishing starts. -/
def Reaches (past : List BusRecord) : Prop :=
  ∀ before e after, past = before ++ published e :: after →
    callsNow after = (live before).map fun id ↦ ⟨id, e⟩

/-- What is added makes no difference to the events before. -/
theorem Reaches.append (h : Reaches past) (hquiet : callsNow rest = [])
    (hrest : ∀ before e after, rest = before ++ published e :: after →
      callsNow after = (live (past ++ before)).map fun id ↦ ⟨id, e⟩) : Reaches (past ++ rest) := by
  intro before e after hsplit
  rcases List.append_eq_append_iff.1 hsplit with ⟨between, rfl, hafter⟩ | ⟨between, rfl, hafter⟩
  · exact hrest between e after hafter
  · cases between with
    | nil => simpa using hrest [] e after hafter.symm
    | cons r between =>
      obtain ⟨rfl, rfl⟩ := List.cons.inj hafter
      exact (callsNow_append hquiet).trans (h before e between rfl)

/-- An answer says whether the subscription was live. -/
def Truthful (before : List BusRecord) : BusRecord → Prop
  | ended id found => found = true ↔ id ∈ live before
  | subscribed _ | published _ | called _ => True

end BusRecord

namespace TimerBus

open BusRecord

variable {b : TimerBus} {past : List BusRecord} {id : Nat} {e : TimerEvent}

/-- The subscriptions in order. -/
def subscriptions (b : TimerBus) : List Nat := b.listeners.map Listener.id

theorem isSubscribed_iff : b.isSubscribed id = true ↔ id ∈ b.subscriptions := by
  rw [isSubscribed, List.any_eq_true, subscriptions, List.mem_map]
  simp only [decide_eq_true_eq]

/-- **Exactly that one is gone.** -/
theorem subscriptions_unsubscribe (b : TimerBus) (id : Nat) :
    (b.unsubscribe id).subscriptions = b.subscriptions.filter fun k ↦ k ≠ id := by
  rw [subscriptions, subscriptions, List.filter_map]
  rfl

/-- **The number of listeners changes exactly if there was the subscription.** -/
theorem endSubscription_fst (b : TimerBus) (id : Nat) :
    (b.endSubscription id).1 = b.isSubscribed id := by
  rw [Bool.eq_iff_iff, endSubscription, bne_iff_ne, listenerCount, listenerCount, unsubscribe,
    ne_eq, List.length_filter_eq_length_iff, isSubscribed, List.any_eq_true]
  push Not
  simp only [decide_eq_true_eq, decide_eq_false_iff_not, Bool.not_eq_true, not_not]

/-- The bus is as the record says. -/
structure Tells (b : TimerBus) (past : List BusRecord) : Prop where
  subscriptions : b.subscriptions = live past
  made : made past = List.range b.next
  truthful : ∀ before r after, past = before ++ r :: after → r.Truthful before

/-- A new bus has nothing to tell. -/
theorem tells_empty : empty.Tells [] :=
  ⟨rfl, rfl, fun _ _ _ hsplit ↦ absurd hsplit (by simp)⟩

namespace Tells

/-- A new subscription is made and is live. -/
theorem subscribe (h : b.Tells past) (drops : TimerEvent → List Nat) :
    (b.subscribe drops).Tells (past ++ [.subscribed b.next]) := by
  refine ⟨?_, ?_, forall_moment_concat h.truthful trivial⟩
  · rw [live_concat, ← h.subscriptions, TimerBus.subscriptions, TimerBus.subscribe, List.map_append]
    simp [ends, BusRecord.made, TimerBus.subscriptions]
  · rw [made_append, h.made]
    exact List.range_succ.symm

/-- Ending a subscription that is not live finds none. -/
theorem unsubscribe (h : b.Tells past) (id : Nat) :
    (b.unsubscribe id).Tells (past ++ [.ended id (b.endSubscription id).1]) := by
  refine ⟨?_, ?_, forall_moment_concat h.truthful ?_⟩
  · rw [live_concat, ← h.subscriptions, subscriptions_unsubscribe]
    simp [ends, BusRecord.made, eq_comm]
  · rw [made_append, h.made]
    exact List.append_nil _
  · rw [Truthful, endSubscription_fst, isSubscribed_iff, h.subscriptions]

/-- The rest of what is written down changes no subscription. -/
theorem note (h : b.Tells past) {r : BusRecord} (hends : ∀ id, ends id r = false)
    (hmade : BusRecord.made [r] = []) (htrue : r.Truthful past) : b.Tells (past ++ [r]) := by
  refine ⟨?_, ?_, forall_moment_concat h.truthful htrue⟩
  · rw [live_concat, hmade, h.subscriptions]
    simp [hends]
  · rw [made_append, hmade, h.made, List.append_nil]

end Tells

/-! ### What is written down of a delivery -/

/-- The requests of a listener, one after the other. -/
def endRecord (b : TimerBus) : List Nat → List BusRecord
  | [] => []
  | id :: rest => .ended id (b.endSubscription id).1 :: (b.endSubscription id).2.endRecord rest

/-- Each call of a listener, and then what the listener does. -/
def callRecord (b : TimerBus) (e : TimerEvent) : List Listener → List BusRecord
  | [] => []
  | l :: rest =>
    .called ⟨l.id, e⟩ ::
      (b.endRecord (l.drops e) ++ (b.unsubscribeAll (l.drops e)).callRecord e rest)

/-- An event, and what comes of it. -/
def publishRecord (b : TimerBus) (e : TimerEvent) : List BusRecord :=
  .published e :: b.callRecord e b.listeners

/-- Events one after the other, and what comes of each. -/
def publishAllRecord (b : TimerBus) : List TimerEvent → List BusRecord
  | [] => []
  | e :: rest => b.publishRecord e ++ (b.publish e).1.publishAllRecord rest

/-- The ends that a listener asks for are in the record as they are found. -/
theorem Tells.unsubscribeAll (h : b.Tells past) (ids : List Nat) :
    (b.unsubscribeAll ids).Tells (past ++ b.endRecord ids) := by
  induction ids generalizing b past with
  | nil => exact (List.append_nil past).symm ▸ h
  | cons id rest ih =>
    rw [endRecord, List.append_cons]
    exact ih (h.unsubscribe id)

/-- A bus that delivers an event is as its record says afterwards. -/
theorem Tells.deliver (h : b.Tells past) (e : TimerEvent) (ls : List Listener) :
    (b.deliver e ls).Tells (past ++ b.callRecord e ls) := by
  induction ls generalizing b past with
  | nil => exact (List.append_nil past).symm ▸ h
  | cons l rest ih =>
    have hcalled : b.Tells (past ++ [.called ⟨l.id, e⟩]) := h.note (fun _ ↦ rfl) rfl trivial
    have hdone := ih (hcalled.unsubscribeAll (l.drops e))
    rw [callRecord, List.append_cons, ← List.append_assoc]
    exact hdone

/-- A bus that publishes an event is as its record says afterwards. -/
theorem Tells.publish (h : b.Tells past) (e : TimerEvent) :
    (b.publish e).1.Tells (past ++ b.publishRecord e) := by
  rw [publishRecord, List.append_cons]
  exact (h.note (r := .published e) (fun _ ↦ rfl) rfl trivial).deliver e b.listeners

/-- Ending subscriptions calls nobody. -/
theorem callsNow_endRecord (b : TimerBus) (ids : List Nat) (rest : List BusRecord) :
    callsNow (b.endRecord ids ++ rest) = callsNow rest := by
  induction ids generalizing b with
  | nil => rfl
  | cons id ids ih => exact ih _

theorem calls_endRecord_append (b : TimerBus) (ids : List Nat) (rest : List BusRecord) :
    calls (b.endRecord ids ++ rest) = calls rest := by
  induction ids generalizing b with
  | nil => rfl
  | cons id ids ih => exact ih _

/-- **Each of them is called once and in order,** whatever they do. -/
theorem callsNow_callRecord (b : TimerBus) (e : TimerEvent) (ls : List Listener) :
    callsNow (b.callRecord e ls) = ls.map fun l ↦ ⟨l.id, e⟩ := by
  induction ls generalizing b with
  | nil => rfl
  | cons l rest ih =>
    rw [callRecord, callsNow, callsNow_endRecord, ih, List.map_cons]

/-- The calls that are written down are the deliveries. -/
theorem calls_publishRecord (b : TimerBus) (e : TimerEvent) :
    calls (b.publishRecord e) = (b.publish e).2 := by
  have hcalls : ∀ (b : TimerBus) ls, calls (b.callRecord e ls) = ls.map fun l ↦ ⟨l.id, e⟩ := by
    intro b ls
    induction ls generalizing b with
    | nil => rfl
    | cons l rest ih =>
      have hrest := (calls_endRecord_append b (l.drops e) _).trans
        (ih (b.unsubscribeAll (l.drops e)))
      exact congrArg (⟨l.id, e⟩ :: ·) hrest
  exact hcalls b b.listeners

/-- No event is published while another is delivered. -/
theorem published_notMem_callRecord (b : TimerBus) (e e' : TimerEvent) (ls : List Listener) :
    .published e' ∉ b.callRecord e ls := by
  have hends : ∀ (b : TimerBus) ids, .published e' ∉ b.endRecord ids := by
    intro b ids
    induction ids generalizing b with
    | nil => exact List.not_mem_nil
    | cons id rest ih => simpa [endRecord] using ih _
  induction ls generalizing b with
  | nil => exact List.not_mem_nil
  | cons l rest ih => simpa [callRecord] using ⟨hends _ _, ih _⟩

/-- The bus is as the record says, and all events have reached whom they had to. -/
structure Serves (b : TimerBus) (past : List BusRecord) : Prop extends b.Tells past where
  reaches : Reaches past
  unasked : callsNow past = []

namespace Serves

/-- What is no call and no event has nobody to reach. -/
theorem quiet (h : b.Serves past) {b' : TimerBus} {r : BusRecord} (htells : b'.Tells (past ++ [r]))
    (hcalls : callsNow [r] = []) (hevent : ∀ e, r ≠ .published e) : b'.Serves (past ++ [r]) := by
  refine ⟨htells, h.reaches.append hcalls fun before e after hsplit ↦ ?_, ?_⟩
  · have hmem : .published e ∈ [r] := hsplit ▸ List.mem_append_right _ List.mem_cons_self
    exact absurd (List.mem_singleton.1 hmem).symm (hevent e)
  · rw [callsNow_append hcalls, h.unasked]

/-- An event that is published reaches whom it has to. -/
theorem publish (h : b.Serves past) (e : TimerEvent) :
    (b.publish e).1.Serves (past ++ b.publishRecord e) := by
  refine ⟨h.toTells.publish e, h.reaches.append rfl fun before e' after hsplit ↦ ?_, ?_⟩
  · cases before with
    | nil =>
      obtain ⟨hevent, rfl⟩ := List.cons.inj hsplit
      obtain rfl := published.inj hevent
      rw [callsNow_callRecord, List.append_nil, ← h.subscriptions, TimerBus.subscriptions,
        List.map_map]
      rfl
    | cons r before =>
      have hmem : .published e' ∈ b.callRecord e b.listeners :=
        (List.cons.inj hsplit).2 ▸ List.mem_append_right _ List.mem_cons_self
      exact absurd hmem (published_notMem_callRecord b e e' b.listeners)
  · rw [callsNow_append rfl, h.unasked]

/-- **Events one after the other** are published each from where the one before has left the bus. -/
theorem publishAll (h : b.Serves past) (es : List TimerEvent) :
    (b.publishAll es).1.Serves (past ++ b.publishAllRecord es) := by
  induction es generalizing b past with
  | nil => exact (List.append_nil past).symm ▸ h
  | cons e rest ih =>
    rw [publishAllRecord, ← List.append_assoc]
    exact ih (h.publish e)

/-- No two subscriptions have one number. -/
theorem nodup_made (h : b.Serves past) : (made past).Nodup := by
  rw [h.made]
  exact List.nodup_range

/-- **What was to end comes back for no event,** since no subscription is made twice. -/
theorem not_live_of_ended (h : b.Serves past) {before between after : List BusRecord} {found : Bool}
    (hsplit : past = before ++ .ended id found :: between ++ after) (hmade : id ∈ made before) :
    id ∉ live (before ++ .ended id found :: between) := by
  intro hlive
  have hnodup := h.nodup_made
  rw [hsplit, made_append, made_append] at hnodup
  have hagain : id ∈ made between := mem_made_of_ended hlive
  exact (List.nodup_append.1 (List.nodup_append.1 hnodup).1).2.2 id hmade id hagain rfl

/-- A subscription is found at most once when it is to be ended. -/
theorem count_ended_le (h : b.Serves past) (id : Nat) : past.count (.ended id true) ≤ 1 := by
  by_cases hmem : .ended id true ∈ past
  · obtain ⟨before, after, hsplit, hfirst⟩ := List.eq_append_cons_of_mem hmem
    have hlive : id ∈ live before := (h.truthful before _ after hsplit).1 rfl
    have hlast : .ended id true ∉ after := fun hafter ↦ by
      obtain ⟨between, rest, rfl⟩ := List.append_of_mem hafter
      have hsplit' : past = (before ++ .ended id true :: between) ++ .ended id true :: rest := by
        rw [hsplit, List.append_assoc, List.cons_append]
      have hagain := (h.truthful _ _ rest hsplit').1 rfl
      exact h.not_live_of_ended hsplit' (mem_made_of_mem_live hlive) hagain
    have hcount : past.count (.ended id true) = 1 := by
      rw [hsplit, List.count_append, List.count_cons_self, List.count_eq_zero.2 hfirst,
        List.count_eq_zero.2 hlast]
    exact Nat.le_of_eq hcount
  · exact Nat.le_trans (Nat.le_of_eq (List.count_eq_zero.2 hmem)) (Nat.zero_le 1)

end Serves

/-- The calls that are written down for some events are their deliveries. -/
theorem calls_publishAllRecord (b : TimerBus) (es : List TimerEvent) :
    calls (b.publishAllRecord es) = (b.publishAll es).2 := by
  induction es generalizing b with
  | nil => rfl
  | cons e rest ih =>
    rw [publishAllRecord, calls_append, calls_publishRecord, ih]
    rfl

/-- Gives each listener something else to do from now on. -/
def instruct (b : TimerBus) (drops : Nat → TimerEvent → List Nat) : TimerBus where
  listeners := b.listeners.map fun l ↦ { l with drops := drops l.id }
  next := b.next
  ascending := by simpa [List.map_map, Function.comp_def] using b.ascending
  fresh := by simpa using b.fresh

/-- What listeners are to do is no matter of who is subscribed. -/
theorem subscriptions_instruct (b : TimerBus) (drops : Nat → TimerEvent → List Nat) :
    (b.instruct drops).subscriptions = b.subscriptions :=
  List.map_map

end TimerBus

/-! ### Whatever happens to a bus -/

/-- What may happen to a bus. -/
inductive BusMove where
  | subscribe (drops : TimerEvent → List Nat)
  | unsubscribe (id : Nat)
  /-- Listeners make up their minds about what they do from now on. -/
  | instruct (drops : Nat → TimerEvent → List Nat)
  | publish (e : TimerEvent)
  /-- What still runs somewhere is told to have failed. -/
  | close (r : RunningNodes)

/-- A bus with what has happened to it, and what it has delivered. -/
structure BusCourse where
  bus : TimerBus
  past : List BusRecord
  delivered : List Delivery

namespace BusCourse

open BusRecord TimerBus

/-- A new bus, on which nothing has happened. -/
def start : BusCourse := ⟨.empty, [], []⟩

/-- What becomes of a bus and its record when this happens. -/
def step (c : BusCourse) : BusMove → BusCourse
  | .subscribe drops =>
    { c with bus := c.bus.subscribe drops, past := c.past ++ [.subscribed c.bus.next] }
  | .unsubscribe id =>
    let (found, bus) := c.bus.endSubscription id
    { c with bus := bus, past := c.past ++ [.ended id found] }
  | .instruct drops => { c with bus := c.bus.instruct drops }
  | .publish e =>
    let (bus, ds) := c.bus.publish e
    ⟨bus, c.past ++ c.bus.publishRecord e, c.delivered ++ ds⟩
  | .close r =>
    let (w, ds) := TimerWatch.close ⟨c.bus, r⟩
    ⟨w.bus, c.past ++ c.bus.publishAllRecord r.closingEvents, c.delivered ++ ds⟩

/-- What becomes of a new bus when all this happens, in this order. -/
def run (ms : List BusMove) : BusCourse := ms.foldl step start

/-- One step leaves the bus as its record says, and every event with those it had to reach. -/
theorem serves_step {c : BusCourse} (h : c.bus.Serves c.past) (m : BusMove) :
    (c.step m).bus.Serves (c.step m).past := by
  cases m with
  | subscribe drops => exact h.quiet (h.toTells.subscribe drops) rfl fun _ ↦ nofun
  | unsubscribe id => exact h.quiet (h.toTells.unsubscribe id) rfl fun _ ↦ nofun
  | instruct drops =>
    exact ⟨⟨(subscriptions_instruct c.bus drops).trans h.subscriptions, h.made, h.truthful⟩,
      h.reaches, h.unasked⟩
  | publish e => exact h.publish e
  | close r => exact h.publishAll r.closingEvents

/-- After every run the bus is as its record says, and every event has reached whom it had to. -/
theorem serves_run (ms : List BusMove) : (run ms).bus.Serves (run ms).past := by
  induction ms using List.reverseRecOn with
  | nil => exact ⟨tells_empty, fun _ _ _ hsplit ↦ absurd hsplit (by simp [run, start]), rfl⟩
  | append_singleton ms m ih =>
    rw [run, List.foldl_concat]
    exact serves_step ih m

/-- The deliveries of a run are the calls of its record. -/
theorem delivered_run (ms : List BusMove) : (run ms).delivered = calls (run ms).past := by
  induction ms using List.reverseRecOn with
  | nil => rfl
  | append_singleton ms m ih =>
    rw [run, List.foldl_concat, ← run]
    cases m with
    | subscribe drops | unsubscribe id =>
      rw [step, calls_append]
      exact ih.trans (List.append_nil _).symm
    | instruct drops => exact ih
    | publish e =>
      rw [step, calls_append, calls_publishRecord]
      exact congrArg (· ++ _) ih
    | close r =>
      rw [step, calls_append, calls_publishAllRecord]
      exact congrArg (· ++ _) ih

/-- What a bus owes to its subscriptions. -/
structure IsFair (c : BusCourse) : Prop where
  /-- What is delivered are the calls, and the listeners are the live subscriptions. -/
  delivered : c.delivered = calls c.past
  subscriptions : c.bus.subscriptions = live c.past
  /-- An event reaches those who are live when its publishing starts, each once and in order, and
  nobody else; without an event nobody is called. -/
  reaches : ∀ before e after, c.past = before ++ published e :: after →
    (live before).Nodup ∧ callsNow after = (live before).map fun id ↦ ⟨id, e⟩
  unasked : callsNow c.past = []
  /-- A subscription that was to end is reached by none of the events that follow. -/
  silent : ∀ before id found between e after,
    c.past = before ++ ended id found :: between ++ published e :: after → id ∈ made before →
      ∀ d ∈ callsNow after, d.subscription ≠ id
  /-- An answer says whether the subscription was live, and says so once at most. -/
  truthful : ∀ before id found after, c.past = before ++ ended id found :: after →
    (found = true ↔ id ∈ live before)
  once : ∀ id, c.past.count (ended id true) ≤ 1
  /-- Ending a subscription leaves all others. -/
  onlyThat : ∀ id, (c.bus.endSubscription id).2.subscriptions =
    c.bus.subscriptions.filter fun k ↦ k ≠ id

/-- **A bus reaches who is live,** whatever its listeners do while they are called. -/
theorem reaches_live (ms : List BusMove) : (run ms).IsFair := by
  have h := serves_run ms
  refine ⟨delivered_run ms, h.subscriptions, fun before e after hsplit ↦
    ⟨?_, h.reaches before e after hsplit⟩, h.unasked,
    fun before id found between e after hsplit hmade d hd ↦ ?_, fun before id found after hsplit ↦
      h.truthful before _ after hsplit, h.count_ended_le,
    subscriptions_unsubscribe _⟩
  · have hnodup := h.nodup_made
    rw [hsplit, made_append] at hnodup
    exact (live_sublist_made before).nodup (List.nodup_append.1 hnodup).1
  · have hnot := h.not_live_of_ended hsplit hmade
    rw [h.reaches _ e after hsplit] at hd
    obtain ⟨k, hk, rfl⟩ := List.mem_map.1 hd
    exact fun hid ↦ hnot (hid ▸ hk)

end BusCourse

end GraphSession
