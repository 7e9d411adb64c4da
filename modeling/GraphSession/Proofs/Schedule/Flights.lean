import Mathlib.Data.List.Nodup
import GraphSession.Proofs.Schedule.Places
import GraphSession.Schedule.Flight

/-!
# What a flight does

A flight picks one of the orders in which calls can take their turns. Whatever it picks, one turn of
it is the turn of one call, or of nobody (`Flight.step_of_next?`): the turn of that call decides
what becomes of the shared state, of the call and of its result, and the calls of all others stay as
they are. So a property that turns of calls keep is kept by a flight, however many turns it takes
(`Flight.run_of_step`).

**Calls are known by their tickets.** Every call that is made gets the next ticket
(`Flight.Numbered`), so its ticket is the place that it has among all calls that were made, and
`Flight.call?` changes at one ticket at a time.

**Nobody is passed over.** A call that can go on is in the queue (`Flight.Roused`), after every
turn. So when the queue is empty everybody has to wait (`Flight.waits_of_settle`).
-/

namespace GraphSession

namespace Flight

variable {σ κ ρ : Type} {m : Machine σ κ ρ} {f f' : Flight σ κ ρ} {ticket : Nat}

/-- The call of a ticket, if it has not returned. -/
def call? (f : Flight σ κ ρ) (ticket : Nat) : Option κ := (f.caller? ticket).map Caller.call

/-- The tickets of the calls that have not returned. -/
def tickets (f : Flight σ κ ρ) : List Nat := f.callers.map Caller.ticket

/-- No two calls have one ticket, and none has a ticket that was not given out. -/
structure Numbered (f : Flight σ κ ρ) : Prop where
  distinct : f.tickets.Nodup
  given : ∀ t ∈ f.tickets, t < f.made.length

/-- What one turn of a flight comes to. -/
inductive Step (m : Machine σ κ ρ) (f f' : Flight σ κ ρ) : Prop
  /-- Nobody has gone on. -/
  | idle (shared : f'.shared = f.shared) (calls : f'.call? = f.call?)
      (returned : f'.returned = f.returned)
  /-- One call has got to another place. -/
  | moves (t : Nat) (c c' : κ) (before : f.call? t = some c)
      (turn : m.turn f.shared c = .moves f'.shared c')
      (calls : f'.call? = Function.update f.call? t (some c')) (returned : f'.returned = f.returned)
  /-- One call has returned. -/
  | ends (t : Nat) (c : κ) (label : String) (r : ρ) (before : f.call? t = some c)
      (turn : m.turn f.shared c = .ends f'.shared r)
      (calls : f'.call? = Function.update f.call? t none)
      (returned : f'.returned = f.returned ++ [(label, r)])

/-! ### The calls of a flight -/

theorem call?_start (s : σ) : (start s : Flight σ κ ρ).call? = fun _ ↦ none := rfl

theorem numbered_start (s : σ) : (start s : Flight σ κ ρ).Numbered :=
  ⟨List.nodup_nil, nofun⟩

/-- Whoever has a ticket has the call of that ticket. -/
theorem call?_of_caller? {c : Caller κ} (h : f.caller? ticket = some c) :
    c.ticket = ticket ∧ f.call? ticket = some c.call :=
  ⟨by simpa using List.find?_some h, by rw [call?, h, Option.map_some]⟩

theorem Numbered.call?_eq_none (hf : f.Numbered) (h : f.made.length ≤ ticket) :
    f.call? ticket = none := by
  have hnobody : f.caller? ticket = none := by
    rw [caller?, List.find?_eq_none]
    intro c hc heq
    have hgiven := hf.given c.ticket (List.mem_map_of_mem hc)
    have hticket : c.ticket = ticket := of_decide_eq_true heq
    omega
  rw [call?, hnobody, Option.map_none]

/-- **A call that is made** has the next ticket. -/
theorem Numbered.call?_launch (hf : f.Numbered) (label : String) (c : κ) :
    (f.launch label c).call? = Function.update f.call? f.made.length (some c) := by
  funext t
  have hfind : (f.launch label c).caller? t =
      (f.caller? t).or (if f.made.length = t then some ⟨f.made.length, label, c⟩ else none) := by
    rw [launch, caller?, caller?, List.find?_append, List.find?_singleton]
    simp only [decide_eq_true_eq]
  rcases eq_or_ne t f.made.length with rfl | ht
  · have hnone := Option.map_eq_none_iff.1 (hf.call?_eq_none (Nat.le_refl _))
    rw [Function.update_self, call?, hfind, hnone, if_pos rfl]
    rfl
  · rw [Function.update_of_ne ht, call?, hfind, if_neg ht.symm, Option.or_none, call?]

/-- A new call takes the next number. -/
theorem Numbered.launch (hf : f.Numbered) (label : String) (c : κ) :
    (f.launch label c).Numbered := by
  have htickets : (f.launch label c).tickets = f.tickets ++ [f.made.length] := List.map_append
  have hlength : (f.launch label c).made.length = f.made.length + 1 := List.length_append
  refine ⟨?_, fun t ht ↦ ?_⟩
  · rw [htickets]
    refine List.nodup_append.2 ⟨hf.distinct, List.nodup_singleton _, fun t ht t' ht' ↦ ?_⟩
    rw [List.mem_singleton.1 ht']
    exact Nat.ne_of_lt (hf.given t ht)
  · rw [hlength]
    rw [htickets, List.mem_append, List.mem_singleton] at ht
    rcases ht with hold | rfl
    · exact Nat.lt_succ_of_lt (hf.given t hold)
    · exact Nat.lt_succ_self _

/-- Fewer calls with their tickets are numbered as well. -/
theorem Numbered.of_sublist (hf : f.Numbered) (htickets : f'.tickets.Sublist f.tickets)
    (hmade : f'.made = f.made) : f'.Numbered where
  distinct := htickets.nodup hf.distinct
  given t ht := hmade ▸ hf.given t (htickets.subset ht)

/-- A call that changes is the only one to. -/
theorem call?_replace (h : (f.caller? ticket).isSome = true) (c : κ) :
    (f.replace ticket c).call? = Function.update f.call? ticket (some c) := by
  funext t
  have hfind : (f.replace ticket c).caller? t = (f.caller? t).map fun caller ↦
      if caller.ticket = ticket then { caller with call := c } else caller := by
    have hsame : ((fun caller : Caller κ ↦ decide (caller.ticket = t)) ∘ fun caller ↦
        if caller.ticket = ticket then { caller with call := c } else caller) =
          fun caller ↦ decide (caller.ticket = t) := by
      funext caller
      rw [Function.comp_apply]
      split <;> rfl
    rw [replace, caller?, List.find?_map, hsame, caller?]
  rw [call?, hfind, Option.map_map]
  rcases eq_or_ne t ticket with rfl | ht
  · obtain ⟨caller, hcaller⟩ := Option.isSome_iff_exists.1 h
    rw [Function.update_self, hcaller, Option.map_some, Function.comp_apply,
      if_pos (call?_of_caller? hcaller).1]
  · rw [Function.update_of_ne ht, call?]
    cases hcaller : f.caller? t with
    | none => rfl
    | some caller =>
      have hne : caller.ticket ≠ ticket := (call?_of_caller? hcaller).1.trans_ne ht
      rw [Option.map_some, Function.comp_apply, if_neg hne, Option.map_some]

/-- A call that leaves is the only one to. -/
theorem call?_remove (f : Flight σ κ ρ) (ticket : Nat) :
    (f.remove ticket).call? = Function.update f.call? ticket none := by
  funext t
  rw [call?, caller?, remove, List.find?_filter]
  rcases eq_or_ne t ticket with rfl | ht
  · rw [Function.update_self, Option.map_eq_none_iff, List.find?_eq_none]
    intro caller _ h
    simp at h
  · have hsame : (fun caller : Caller κ ↦ decide (decide (caller.ticket ≠ ticket) = true ∧
        decide (caller.ticket = t) = true)) = fun caller ↦ decide (caller.ticket = t) := by
      funext caller
      simp only [decide_eq_true_eq, decide_eq_decide, and_iff_right_iff_imp]
      exact fun h ↦ h.trans_ne ht
    rw [Function.update_of_ne ht, call?, caller?, hsame]

/-! ### One turn -/

/-- A turn of a caller is a step. -/
theorem step_of_takeTurn {c : Caller κ} (hc : f.caller? c.ticket = some c) :
    Step m f (takeTurn m f c) := by
  have hbefore : f.call? c.ticket = some c.call := (call?_of_caller? hc).2
  rw [takeTurn]
  cases hturn : m.turn f.shared c.call with
  | waits => exact .idle rfl rfl rfl
  | moves s c' =>
    exact .moves c.ticket c.call c' hbefore hturn (call?_replace (hc ▸ rfl) c') rfl
  | ends s r =>
    exact .ends c.ticket c.call c.label r hbefore hturn (call?_remove f c.ticket) rfl

/-- **One turn of a flight** is the turn of one call, or of nobody. -/
theorem step_of_next? (h : next? m f = some f') : Step m f f' := by
  unfold next? at h
  split at h
  · cases h
  · split at h
    · cases h
      exact .idle rfl rfl rfl
    · rename_i c hc
      cases h
      obtain ⟨rfl, -⟩ := call?_of_caller? hc
      exact step_of_takeTurn hc

theorem made_takeTurn (m : Machine σ κ ρ) (f : Flight σ κ ρ) (c : Caller κ) :
    (takeTurn m f c).made = f.made := by
  unfold takeTurn
  split <;> rfl

/-- No call is made on a turn. -/
theorem made_of_next? (h : next? m f = some f') : f'.made = f.made := by
  unfold next? at h
  split at h
  · cases h
  · split at h <;> cases h
    · rfl
    · exact made_takeTurn m f _

/-- No turn brings a caller in. -/
theorem tickets_takeTurn (m : Machine σ κ ρ) (f : Flight σ κ ρ) (c : Caller κ) :
    (takeTurn m f c).tickets.Sublist f.tickets := by
  unfold takeTurn
  split
  · exact List.Sublist.refl _
  · rename_i s c' _
    have hsame : (rouse m { f.replace c.ticket c' with shared := s }).tickets = f.tickets := by
      rw [tickets, tickets, rouse, replace, List.map_map]
      refine List.map_congr_left fun caller _ ↦ ?_
      rw [Function.comp_apply]
      split <;> rfl
    exact hsame ▸ List.Sublist.refl _
  · exact List.filter_sublist.map Caller.ticket

/-- Callers stay numbered from one turn to the next. -/
theorem Numbered.of_next? (hf : f.Numbered) (h : next? m f = some f') : f'.Numbered := by
  unfold next? at h
  split at h
  · cases h
  · split at h <;> cases h
    · exact hf.of_sublist (List.Sublist.refl _) rfl
    · exact hf.of_sublist (tickets_takeTurn m f _) (made_takeTurn m f _)

/-! ### Giving up -/

theorem Numbered.caller?_of_mem (hf : f.Numbered) {c : Caller κ} (hc : c ∈ f.callers) :
    f.caller? c.ticket = some c := by
  cases hfind : f.caller? c.ticket with
  | none => exact absurd (decide_eq_true rfl) (List.find?_eq_none.1 hfind c hc)
  | some first =>
    have hticket := (call?_of_caller? hfind).1
    rw [List.inj_on_of_nodup_map hf.distinct (List.mem_of_find?_eq_some hfind) hc hticket]

/-- **A call that is given up** is in flight, and no longer after that. -/
theorem Numbered.giveUp (hf : f.Numbered) (m : Machine σ κ ρ) (label : String) :
    Flight.giveUp m f label = (false, f) ∨
      ∃ t c, f.call? t = some c ∧ (Flight.giveUp m f label).1 = true ∧
        (Flight.giveUp m f label).2.shared = m.abandon f.shared c ∧
        (Flight.giveUp m f label).2.call? = Function.update f.call? t none ∧
        (Flight.giveUp m f label).2.made = f.made ∧ (Flight.giveUp m f label).2.Numbered := by
  rw [Flight.giveUp]
  cases hlast : f.lastCaller? label with
  | none => exact .inl rfl
  | some c =>
    have hc := call?_of_caller? (hf.caller?_of_mem (List.mem_of_find?_eq_some hlast))
    exact .inr ⟨c.ticket, c.call, hc.2, rfl, rfl, call?_remove f c.ticket, rfl,
      hf.of_sublist (List.filter_sublist.map Caller.ticket) rfl⟩

/-! ### Many turns -/

/-- **What every turn keeps is kept by a flight,** however many turns it takes. -/
theorem run_of_step {P : Flight σ κ ρ → Prop}
    (hstep : ∀ f f', P f → next? m f = some f' → P f') (n : Nat) (hf : P f) : P (run m n f) := by
  induction n generalizing f with
  | zero => exact hf
  | succ n ih =>
    rw [run]
    cases h : next? m f with
    | none => exact hf
    | some f' => exact ih (hstep f f' hf h)

/-- Every call that can go on is in the queue. -/
def Roused (m : Machine σ κ ρ) (f : Flight σ κ ρ) : Prop :=
  ∀ c ∈ f.callers, (m.turn f.shared c.call).isWaiting = false → c.ticket ∈ f.queue

/-- After rousing, every call that can go on is in the queue. -/
theorem roused_rouse (m : Machine σ κ ρ) (f : Flight σ κ ρ) : Roused m (rouse m f) := by
  intro c hc hgoes
  by_cases hqueue : c.ticket ∈ f.queue
  · exact List.mem_append_left _ hqueue
  · have hroused : isRoused m f c = true := by
      rw [isRoused, Bool.and_eq_true, Bool.not_eq_true', Bool.not_eq_true', List.contains_eq_mem,
        decide_eq_false_iff_not]
      exact ⟨hqueue, hgoes⟩
    exact List.mem_append_right _ (List.mem_map_of_mem (List.mem_filter.2 ⟨hc, hroused⟩))

/-- Whoever has to wait may leave the queue. -/
theorem roused_of_next? (hf : Roused m f) (hnumbered : f.Numbered) (h : next? m f = some f') :
    Roused m f' := by
  unfold next? at h
  split at h
  · cases h
  · rename_i t rest hqueue
    split at h <;> cases h
    · rename_i hnobody
      -- the one whose turn it was has left, so nobody loses a turn
      intro c hc hgoes
      have hmem := hf c hc hgoes
      rw [hqueue, List.mem_cons] at hmem
      rcases hmem with rfl | hmem
      · exact absurd (decide_eq_true rfl) (List.find?_eq_none.1 hnobody c hc)
      · exact hmem
    · rename_i first hfirst
      rw [takeTurn]
      cases hturn : m.turn f.shared first.call with
      | moves s c' => exact roused_rouse m _
      | ends s r => exact roused_rouse m _
      | waits =>
        -- the one whose turn it was has to wait, and any other is still in the queue
        intro c hc hgoes
        refine List.mem_filter.2 ⟨hf c hc hgoes, decide_eq_true fun heq ↦ ?_⟩
        have hsame := List.inj_on_of_nodup_map hnumbered.distinct hc
          (List.mem_of_find?_eq_some hfirst) heq
        rw [hsame, hturn] at hgoes
        cases hgoes

/-- **Nobody is passed over.** When a flight has come to rest everybody has to wait. -/
theorem waits_of_settle (hf : f.Numbered) {n : Nat} (hrest : (settle m n f).queue = []) :
    ∀ c ∈ (settle m n f).callers, (m.turn (settle m n f).shared c.call).isWaiting = true := by
  have hroused : Roused m (settle m n f) ∧ (settle m n f).Numbered := by
    refine run_of_step (P := fun f ↦ Roused m f ∧ f.Numbered) (fun f f' h hnext ↦ ?_) n
      ⟨roused_rouse m f, hf.of_sublist (List.Sublist.refl _) rfl⟩
    exact ⟨roused_of_next? h.1 h.2 hnext, h.2.of_next? hnext⟩
  intro c hc
  by_contra hgoes
  have hmem := hroused.1 c hc ((Bool.not_eq_true _).mp hgoes)
  rw [hrest] at hmem
  cases hmem

end Flight

end GraphSession
